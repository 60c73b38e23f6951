import Mathlib.Data.List.Perm.Basic
import Mathlib.Data.List.Nodup
import ObjectLedger.Proofs.Json.Compact

/-!
# Records with sorted fields

Sorting reorders the fields of a record, whose names are distinct, and a record is read by name. So the
value that was written is read back from the sorted form.
-/

namespace ObjectLedger

namespace Json

/-! ### Sorting -/

theorem sortedItems_eq (items : List Json) : sortedItems items = items.map sorted := by
  induction items with
  | nil => rfl
  | cons x xs ih => rw [sortedItems, ih, List.map_cons]

theorem sortedFields_eq (fields : List (String × Json)) :
    sortedFields fields = fields.map fun field => (field.1, field.2.sorted) := by
  induction fields with
  | nil => rfl
  | cons field fields ih => rw [sortedFields, ih, List.map_cons]

theorem insertField_perm {name : String} {fields : List (String × Json)}
    (h : name ∉ fields.map Prod.fst) (value : Json) :
    (insertField name value fields).Perm ((name, value) :: fields) := by
  induction fields with
  | nil => rfl
  | cons field fields ih =>
    obtain ⟨k, v⟩ := field
    obtain ⟨hk, hfields⟩ := not_or.mp (mt List.mem_cons.mpr h)
    rw [insertField, if_neg (c := name = k) hk]
    split_ifs
    · rfl
    · exact ((ih hfields).cons _).trans (.swap _ _ _)

theorem sortFields_perm {fields : List (String × Json)} (h : (fields.map Prod.fst).Nodup) :
    (sortFields fields).Perm fields := by
  have hfold (acc) (hnodup : ((acc ++ fields).map Prod.fst).Nodup) :
      (fields.foldl (fun acc field => insertField field.1 field.2 acc) acc).Perm (acc ++ fields) := by
    clear h
    induction fields generalizing acc with
    | nil => simp
    | cons field fields ih =>
      have hmiddle : (acc ++ field :: fields).Perm (field :: acc ++ fields) := List.perm_middle
      have hnodup' := (hmiddle.map Prod.fst).nodup_iff.mp hnodup
      have hnew : field.1 ∉ acc.map Prod.fst := fun hmem =>
        (List.nodup_cons.mp hnodup').1 (by simp_all)
      have hinsert := (insertField_perm hnew field.2).append_right fields
      exact (ih _ ((hinsert.map Prod.fst).nodup_iff.mpr hnodup')).trans (hinsert.trans hmiddle.symm)
  exact hfold [] h

theorem mem_insertField {name : String} {value : Json} {fields : List (String × Json)}
    {field : String × Json} (h : field ∈ insertField name value fields) :
    field = (name, value) ∨ field ∈ fields := by
  induction fields with
  | nil => exact .inl (List.mem_singleton.mp h)
  | cons first fields ih =>
    obtain ⟨k, v⟩ := first
    rw [insertField] at h
    split_ifs at h
    · exact List.mem_cons.mp h
    · exact (List.mem_cons.mp h).imp_right (List.mem_cons_of_mem _)
    · rcases List.mem_cons.mp h with rfl | h
      · exact .inr List.mem_cons_self
      · exact (ih h).imp_right (List.mem_cons_of_mem _)

theorem mem_sortFields {fields : List (String × Json)} {field : String × Json}
    (h : field ∈ sortFields fields) : field ∈ fields := by
  suffices hfold : ∀ acc, field ∈ fields.foldl (fun acc f => insertField f.1 f.2 acc) acc →
      field ∈ acc ∨ field ∈ fields from (hfold [] h).resolve_left List.not_mem_nil
  clear h
  induction fields with
  | nil => exact fun acc h => .inl h
  | cons first fields ih =>
    intro acc h
    rcases ih _ h with h | h
    · rcases mem_insertField h with rfl | h
      · exact .inr List.mem_cons_self
      · exact .inl h
    · exact .inr (List.mem_cons_of_mem _ h)

theorem Exact.sorted {x : Json} (h : x.Exact) : x.sorted.Exact := by
  induction h with
  | null => exact .null
  | bool value => exact .bool value
  | integer value => exact .integer value
  | text value => exact .text value
  | array _ ih =>
    rw [Json.sorted, sortedItems_eq]
    refine .array fun x hx => ?_
    obtain ⟨y, hy, rfl⟩ := List.mem_map.mp hx
    exact ih y hy
  | object _ ih =>
    rw [Json.sorted, sortedFields_eq]
    refine .object fun field hfield => ?_
    obtain ⟨field', hfield', rfl⟩ := List.mem_map.mp (mem_sortFields hfield)
    exact ih field' hfield'

/-! ### Values read back -/

/-- Types with a JSON form without doubles, from which a value is read back also after its fields are
sorted. -/
class Faithful (α : Type) [ToJson α] [OfJson α] : Prop where
  exact_toJson (x : α) : (toJson x).Exact
  ofJson?_sorted (x : α) : ofJson? (toJson x).sorted = some x

export Faithful (exact_toJson ofJson?_sorted)

theorem exact_tagged {payload : Json} (h : payload.Exact) (name : String) :
    (tagged name payload).Exact :=
  .object (List.forall_mem_singleton.mpr h)

theorem Exact.payload {payload : Json} {name : String} (h : (tagged name payload).Exact) :
    payload.Exact := by
  cases h with
  | object h => exact h _ List.mem_cons_self

theorem below?_nat {n bound : Nat} (h : n < bound) : (nat n).below? bound = some n := by
  rw [nat, below?, if_pos ⟨Int.natCast_nonneg n, Int.ofNat_lt.mpr h⟩, Int.toNat_natCast]

instance : Faithful UInt8 where
  exact_toJson n := .integer _
  ofJson?_sorted n := by
    change (below? UInt8.size (nat n.toNat)).map UInt8.ofNat = some n
    rw [below?_nat n.toNat_lt, Option.map_some, UInt8.ofNat_toNat]

instance : Faithful UInt16 where
  exact_toJson n := .integer _
  ofJson?_sorted n := by
    change (below? UInt16.size (nat n.toNat)).map UInt16.ofNat = some n
    rw [below?_nat n.toNat_lt, Option.map_some, UInt16.ofNat_toNat]

instance : Faithful UInt64 where
  exact_toJson n := .integer _
  ofJson?_sorted n := by
    change (below? UInt64.size (nat n.toNat)).map UInt64.ofNat = some n
    rw [below?_nat n.toNat_lt, Option.map_some, UInt64.ofNat_toNat]

instance : Faithful String where
  exact_toJson s := .text s
  ofJson?_sorted _ := rfl

instance : Faithful Address where
  exact_toJson a := .text a.text
  ofJson?_sorted a := by
    change (Address.parse a.text).toOption = some a
    rw [Address.parse_text]
    rfl

instance {α : Type} [ToJson α] [OfJson α] [Faithful α] : Faithful (List α) where
  exact_toJson xs := .array fun j hj => by
    obtain ⟨x, -, rfl⟩ := List.mem_map.mp hj
    exact exact_toJson x
  ofJson?_sorted xs := by
    change (sortedItems (xs.map toJson)).mapM ofJson? = some xs
    rw [sortedItems_eq, List.map_map]
    induction xs with
    | nil => rfl
    | cons x xs ih =>
      rw [List.map_cons, List.mapM_cons, ih]
      simp [ofJson?_sorted]

instance {α β : Type} [ToJson α] [OfJson α] [Faithful α] [ToJson β] [OfJson β] [Faithful β] :
    Faithful (α × β) where
  exact_toJson p := .array (by simp [exact_toJson])
  ofJson?_sorted p := by
    change (do return (← ofJson? (toJson p.1).sorted, ← ofJson? (toJson p.2).sorted)) = some p
    simp [ofJson?_sorted]

theorem faithful_option {α : Type} [ToJson α] [OfJson α] [Faithful α] (h : ∀ x : α, toJson x ≠ null) :
    Faithful (Option α) where
  exact_toJson
    | none => .null
    | some x => exact_toJson x
  ofJson?_sorted
    | none => rfl
    | some x => by
      have hread : (ofJson? (toJson x).sorted).map some = some (some x) := by
        rw [ofJson?_sorted, Option.map_some]
      change ofJson? (toJson x).sorted = some (some x)
      specialize h x
      cases hx : toJson x <;> simp_all [sorted, ofJson?]

/-! ### Records -/

variable {α β γ : Type} [ToJson α] [OfJson α] [Faithful α] [ToJson β] [OfJson β]
  {name name' : String} {fields : List (String × Json)} {j : Json}

theorem fieldOnce?_of_mem (hnodup : (fields.map Prod.fst).Nodup) (h : (name, j) ∈ fields) :
    fieldOnce? name fields = some (some j) := by
  have hfilter : fields.filter (·.1 == name) = [(name, j)] := by
    induction fields with
    | nil => cases h
    | cons field fields ih =>
      obtain ⟨hnew, hnodup⟩ := List.nodup_cons.mp hnodup
      rcases List.mem_cons.mp h with rfl | h
      · rw [List.filter_cons_of_pos (by simp), List.filter_eq_nil_iff.mpr]
        intro field hfield heq
        exact hnew (List.mem_map.mpr ⟨field, hfield, by simpa using heq⟩)
      · rw [List.filter_cons_of_neg, ih hnodup h]
        intro heq
        exact hnew (List.mem_map.mpr ⟨_, h, by simpa using Eq.symm (by simpa using heq)⟩)
  rw [fieldOnce?, hfilter]

def inOrder (fields : List (String × Json)) : Source := .named (sortFields (sortedFields fields))

theorem next?_inOrder (hnodup : (fields.map Prod.fst).Nodup) (h : (name, j) ∈ fields) :
    next? name (inOrder fields) = some (some j.sorted, inOrder fields) := by
  have hnames : (sortedFields fields).map Prod.fst = fields.map Prod.fst := by
    rw [sortedFields_eq, List.map_map]
    rfl
  have hperm := sortFields_perm (hnames ▸ hnodup)
  have hmem : (name, j.sorted) ∈ sortFields (sortedFields fields) := by
    rw [hperm.mem_iff, sortedFields_eq]
    exact List.mem_map.mpr ⟨_, h, rfl⟩
  have hnodup' := (hperm.map Prod.fst).nodup_iff.mpr (hnames ▸ hnodup)
  rw [inOrder, next?, fieldOnce?_of_mem hnodup' hmem, Option.map_some]

theorem bind_required (hnodup : (fields.map Prod.fst).Nodup) (x : α) (h : (name, toJson x) ∈ fields)
    (next : α → RecordReader γ) :
    (required α name >>= next) (inOrder fields) = next x (inOrder fields) := by
  simp [required, bind, StateT.bind, next?_inOrder hnodup h, liftM, monadLift, MonadLift.monadLift,
    StateT.lift, ofJson?_sorted]

theorem bind_optional [Faithful (Option β)] (hnodup : (fields.map Prod.fst).Nodup) (x : Option β)
    (h : (name, toJson x) ∈ fields) (next : Option β → RecordReader γ) :
    (optional β name >>= next) (inOrder fields) = next x (inOrder fields) := by
  simp [optional, bind, StateT.bind, next?_inOrder hnodup h, liftM, monadLift, MonadLift.monadLift,
    StateT.lift, get, getThe, MonadStateOf.get, StateT.get, ofJson?_sorted]

theorem record?_sorted (read : RecordReader γ) (fields : List (String × Json)) :
    record? read (object fields).sorted = (read (inOrder fields)).map Prod.fst := by
  rw [sorted, record?, inOrder]

theorem fields?_sorted (read : RecordReader γ) (fields : List (String × Json)) :
    fields? read (some (object fields).sorted) = (read (inOrder fields)).map Prod.fst := by
  rw [sorted, fields?, inOrder]

theorem read_two [Faithful β] (make : α → β → γ) (h : name ≠ name') (x : α) (y : β) :
    ((do return make (← required α name) (← required β name') : RecordReader γ)
      (inOrder [(name, toJson x), (name', toJson y)])).map Prod.fst = some (make x y) := by
  have hnodup : ([(name, toJson x), (name', toJson y)].map Prod.fst).Nodup := by simp [h]
  rw [bind_required hnodup x (by simp), bind_required hnodup y (by simp)]
  rfl

/-! ### Variants -/

section

variable [OfJson γ] {tag : String}

theorem ofJson?_single (make : α → γ)
    (hread : ∀ p, ofJson? (tagged tag p) = single? make (some p)) (x : α) :
    ofJson? (tagged tag (toJson x)).sorted = some (make x) := by
  change ofJson? (tagged tag (toJson x).sorted) = _
  rw [hread, single?, ofJson?_sorted, Option.map_some]

theorem ofJson?_one (make : α → γ)
    (hread : ∀ p, ofJson? (tagged tag p) =
      fields? (do return make (← required α name)) (some p)) (x : α) :
    ofJson? (tagged tag (object [(name, toJson x)])).sorted = some (make x) := by
  change ofJson? (tagged tag (object [(name, toJson x)]).sorted) = _
  rw [hread, fields?_sorted, bind_required (by simp) x (by simp)]
  rfl

theorem ofJson?_two [Faithful β] (make : α → β → γ) (h : name ≠ name')
    (hread : ∀ p, ofJson? (tagged tag p) =
      fields? (do return make (← required α name) (← required β name')) (some p)) (x : α) (y : β) :
    ofJson? (tagged tag (object [(name, toJson x), (name', toJson y)])).sorted = some (make x y) := by
  change ofJson? (tagged tag (object [(name, toJson x), (name', toJson y)]).sorted) = _
  rw [hread, fields?_sorted, read_two make h x y]

end

end Json

end ObjectLedger
