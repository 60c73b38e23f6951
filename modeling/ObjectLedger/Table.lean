/-!
# Tables

Association lists in which each key stands once. The main statements say what looking a key up gives
after an insertion and after a removal.
-/

namespace ObjectLedger

/-- Values by key; the order of the entries has no meaning. -/
abbrev Table (κ ν : Type) := List (κ × ν)

namespace Table

variable {κ ν : Type} [DecidableEq κ]

def get? (t : Table κ ν) (key : κ) : Option ν := t.lookup key

def erase (t : Table κ ν) (key : κ) : Table κ ν := t.filter fun entry => decide (entry.1 ≠ key)

/-- The table with a value for a key, in place of any other. -/
def insert (t : Table κ ν) (key : κ) (value : ν) : Table κ ν := (key, value) :: erase t key

theorem get?_cons (entry : κ × ν) (t : Table κ ν) (key : κ) :
    get? (entry :: t) key = if key = entry.1 then some entry.2 else get? t key := by
  obtain ⟨k, v⟩ := entry
  by_cases h : key = k
  · subst h
    simp only [get?, List.lookup_cons_self, if_true]
  · have hb : (key == k) = false := by simpa using h
    simp only [get?, List.lookup_cons, hb, h, if_false]

@[simp] theorem get?_erase_self (t : Table κ ν) (key : κ) : get? (erase t key) key = none := by
  induction t with
  | nil => rfl
  | cons entry t ih =>
    by_cases h : entry.1 = key
    · simpa [erase, h] using ih
    · have hne : key ≠ entry.1 := fun h' => h h'.symm
      simpa [erase, h, get?_cons, hne] using ih

theorem get?_erase_of_ne (t : Table κ ν) {key other : κ} (h : other ≠ key) :
    get? (erase t key) other = get? t other := by
  induction t with
  | nil => rfl
  | cons entry t ih =>
    by_cases hk : entry.1 = key
    · have hne : other ≠ entry.1 := fun h' => h (h'.trans hk)
      simpa [erase, hk, get?_cons, hne, h] using ih
    · by_cases ho : other = entry.1
      · simp [erase, hk, get?_cons, ho]
      · simpa [erase, hk, get?_cons, ho] using ih

@[simp] theorem get?_insert_self (t : Table κ ν) (key : κ) (value : ν) :
    get? (insert t key value) key = some value := by
  simp [insert, get?_cons]

theorem get?_insert_of_ne (t : Table κ ν) {key other : κ} (value : ν) (h : other ≠ key) :
    get? (insert t key value) other = get? t other := by
  simp [insert, get?_cons, h, get?_erase_of_ne t h]

theorem mem_of_get? {t : Table κ ν} {key : κ} {value : ν} (h : get? t key = some value) :
    (key, value) ∈ t := by
  obtain ⟨before, after, rfl, -⟩ := List.lookup_eq_some_iff.mp h
  exact List.mem_append_right before List.mem_cons_self

end Table

end ObjectLedger
