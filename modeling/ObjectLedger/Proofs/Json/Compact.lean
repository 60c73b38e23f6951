import ObjectLedger.Json.Printer
import ObjectLedger.Json.Reader
import ObjectLedger.Proofs.Ledger.Address
import ObjectLedger.Proofs.Prelude

/-!
# Compact JSON told apart

The compact text of a value shows where the value ends: a string at its quote, an array or an object at
its bracket, a number where no digit follows. So whatever follows the texts of two values, the values are
equal when the whole texts are. Doubles are left out: those that are not finite are printed as null.
-/

namespace ObjectLedger.Json

/-! ### Strings -/

theorem readUnicode?_control {n : Nat} (hn : n < 32) (cs : List Char) :
    readUnicode? ('0' :: '0' :: Hex.digit (n / 16) :: Hex.digit (n % 16) :: cs) =
      some (Char.ofNat n, cs) := by
  have hzero : Hex.value? '0' = some 0 := by decide
  have hhigh := Hex.value?_digit (n / 16) (by omega)
  have hlow := Hex.value?_digit (n % 16) (by omega)
  have hsum : 16 * (n / 16) + n % 16 = n := Nat.div_add_mod n 16
  simp only [readUnicode?, readUnit?, hzero, hhigh, hlow, Option.bind_eq_bind, Option.bind_some,
    Option.pure_def, Nat.mul_zero, Nat.zero_add, hsum]
  rw [if_pos (.inl (by omega))]

theorem readString?_escape (fuel : Nat) (acc : List Char) (c : Char) (cs : List Char) :
    readString? (fuel + 1) acc (escape c ++ cs) = readString? fuel (c :: acc) cs := by
  have hc {n : Nat} (h : c.toNat = n) : c = Char.ofNat n := by rw [← h, Char.ofNat_toNat]
  unfold escape
  split_ifs with hquote hslash h8 h9 h10 h12 h13 hcontrol
  · rw [hquote]
    rfl
  · rw [hslash]
    rfl
  · rw [hc h8]
    rfl
  · rw [hc h9]
    rfl
  · rw [hc h10]
    rfl
  · rw [hc h12]
    rfl
  · rw [hc h13]
    rfl
  · simp only [List.cons_append, List.nil_append, readString?, readUnicode?_control hcontrol,
      Char.ofNat_toNat]
  · rw [List.singleton_append, readString?, if_neg hcontrol]
    all_goals simp_all

theorem readString?_quoted {s : List Char} {fuel : Nat} (hfuel : s.length < fuel)
    (acc rest : List Char) :
    readString? fuel acc (s.flatMap escape ++ '"' :: rest) =
      some (String.ofList (acc.reverse ++ s), rest) := by
  obtain ⟨fuel, rfl⟩ : ∃ n, fuel = n + 1 := ⟨fuel - 1, by omega⟩
  induction s generalizing acc fuel with
  | nil => simp [readString?]
  | cons c s ih =>
    rw [List.length_cons, Nat.succ_lt_succ_iff] at hfuel
    obtain ⟨fuel, rfl⟩ : ∃ n, fuel = n + 1 := ⟨fuel - 1, by omega⟩
    rw [List.flatMap_cons, List.append_assoc, readString?_escape, ih _ _ hfuel]
    simp

theorem quoted_append_inj {s t : String} {r r' : List Char}
    (h : quoted s ++ r = quoted t ++ r') : s = t ∧ r = r' := by
  simp only [quoted, List.cons_append, List.append_assoc, List.nil_append, List.cons.injEq,
    true_and] at h
  have hs := readString?_quoted (Nat.lt_succ_of_le (Nat.le_add_right s.toList.length t.toList.length)) [] r
  rw [h, readString?_quoted (Nat.lt_succ_of_le (Nat.le_add_left _ _)) [] r'] at hs
  simpa [eq_comm] using hs

/-! ### Whole numbers -/

def NoDigit (cs : List Char) : Prop := ∀ c ∈ cs.head?, c.isDigit = false

theorem toDigits_append_inj {m n : Nat} {r r' : List Char} (hr : NoDigit r) (hr' : NoDigit r')
    (h : Nat.toDigits 10 m ++ r = Nat.toDigits 10 n ++ r') : m = n ∧ r = r' := by
  have hdigits (k : Nat) : ∀ c ∈ Nat.toDigits 10 k, c.isDigit = true := fun c =>
    Nat.isDigit_of_mem_toDigits (by decide) (by decide)
  obtain ⟨heq, hrest⟩ := List.append_inj_of_head? (hdigits m) (hdigits n) hr hr' h
  refine ⟨?_, hrest⟩
  rw [← Nat.ofDigitChars_ten_toDigits (n := m), heq, Nat.ofDigitChars_ten_toDigits]

theorem exists_digit_toDigits (n : Nat) :
    ∃ c cs, Nat.toDigits 10 n = c :: cs ∧ c.isDigit = true := by
  obtain ⟨c, cs, heq⟩ := List.exists_cons_of_ne_nil (Nat.toDigits_ne_nil (n := n) (b := 10))
  exact ⟨c, cs, heq,
    Nat.isDigit_of_mem_toDigits (by decide) (by decide) (heq ▸ List.mem_cons_self)⟩

theorem integerText_append_inj {i j : Int} {r r' : List Char} (hr : NoDigit r) (hr' : NoDigit r')
    (h : integerText i ++ r = integerText j ++ r') : i = j ∧ r = r' := by
  unfold integerText at h
  have hsign (n : Nat) (cs : List Char) (r : List Char) : Nat.toDigits 10 n ++ r ≠ '-' :: cs := by
    obtain ⟨c, ds, heq, hc⟩ := exists_digit_toDigits n
    rw [heq]
    rintro ⟨⟩
    cases hc
  split_ifs at h with hi hj hj
  · obtain ⟨habs, hrest⟩ := toDigits_append_inj hr hr' (List.cons.inj h).2
    exact ⟨by omega, hrest⟩
  · exact absurd h.symm (hsign _ _ _)
  · exact absurd h (hsign _ _ _)
  · obtain ⟨habs, hrest⟩ := toDigits_append_inj hr hr' h
    exact ⟨by omega, hrest⟩

/-! ### Items and fields -/

section

variable {α : Type} {print : α → List Char} {close : Char} {x y : α} {xs ys : List α}
  {r r' : List Char}

/-- What stands behind a member: the other members, each behind a comma, and the closing character. -/
def following (print : α → List Char) (close : Char) : List α → List Char
  | [] => [close]
  | x :: xs => ',' :: (print x ++ following print close xs)

/-- All members and the closing character. -/
def members (print : α → List Char) (close : Char) : List α → List Char
  | [] => [close]
  | x :: xs => print x ++ following print close xs

/-- Texts that are told apart where no digit follows. -/
def ToldApart (print : α → List Char) (x y : α) : Prop :=
  ∀ ⦃r r'⦄, NoDigit r → NoDigit r' → print x ++ r = print y ++ r' → x = y ∧ r = r'

theorem noDigit_cons {c : Char} {cs : List Char} (h : c.isDigit = false) : NoDigit (c :: cs) := by
  rintro _ ⟨⟩
  exact h

theorem noDigit_following (hclose : close.isDigit = false) :
    NoDigit (following print close xs ++ r) := by
  cases xs with
  | nil => exact noDigit_cons hclose
  | cons x xs => exact noDigit_cons rfl

theorem following_append_inj (hclose : close.isDigit = false) (hcomma : close ≠ ',')
    (hmembers : ∀ x ∈ xs, ∀ y ∈ ys, ToldApart print x y)
    (h : following print close xs ++ r = following print close ys ++ r') : xs = ys ∧ r = r' := by
  induction xs generalizing ys with
  | nil =>
    cases ys with
    | nil => exact ⟨rfl, (List.cons.inj h).2⟩
    | cons y ys => exact absurd (List.cons.inj h).1 hcomma
  | cons x xs ih =>
    cases ys with
    | nil => exact absurd (List.cons.inj h).1.symm hcomma
    | cons y ys =>
      simp only [following, List.cons_append, List.append_assoc, List.cons.injEq, true_and] at h
      obtain ⟨rfl, htail⟩ := hmembers x List.mem_cons_self y List.mem_cons_self
        (noDigit_following hclose) (noDigit_following hclose) h
      obtain ⟨rfl, hrest⟩ := ih (fun x hx y hy =>
        hmembers x (List.mem_cons_of_mem _ hx) y (List.mem_cons_of_mem _ hy)) htail
      exact ⟨rfl, hrest⟩

theorem members_append_inj (hclose : close.isDigit = false) (hcomma : close ≠ ',')
    (hbegin : ∀ x ∈ xs ++ ys, ∃ c ≠ close, ∃ cs, print x = c :: cs)
    (hmembers : ∀ x ∈ xs, ∀ y ∈ ys, ToldApart print x y)
    (h : members print close xs ++ r = members print close ys ++ r') : xs = ys ∧ r = r' := by
  have hempty {x : α} (hx : x ∈ xs ++ ys) (cs ds : List Char) : print x ++ cs ≠ close :: ds := by
    obtain ⟨c, hc, cs, heq⟩ := hbegin x hx
    rw [heq]
    exact fun h => hc (List.cons.inj h).1
  cases xs with
  | nil =>
    cases ys with
    | nil => exact ⟨rfl, (List.cons.inj h).2⟩
    | cons y ys =>
      rw [members, members, List.append_assoc] at h
      exact absurd h.symm (hempty (by simp) _ _)
  | cons x xs =>
    cases ys with
    | nil =>
      rw [members, members, List.append_assoc] at h
      exact absurd h (hempty (by simp) _ _)
    | cons y ys =>
      -- With a comma in front of both lists, their members follow it.
      have hcommas : following print close (x :: xs) ++ r = following print close (y :: ys) ++ r' := by
        simpa [following, members] using h
      exact following_append_inj hclose hcomma hmembers hcommas

end

def fieldText (field : String × Json) : List Char := quoted field.1 ++ ':' :: compact field.2

theorem compactItems_eq (items : List Json) : compactItems items = members compact ']' items := by
  cases items with
  | nil => rfl
  | cons x xs =>
    induction xs generalizing x with
    | nil => rfl
    | cons y ys ih => rw [compactItems, ih y, members, members, following]; exact fun h => by cases h

theorem compactFields_eq (fields : List (String × Json)) :
    compactFields fields = members fieldText '\x7d' fields := by
  cases fields with
  | nil => rfl
  | cons x xs =>
    induction xs generalizing x with
    | nil => simp [compactFields, members, following, fieldText]
    | cons y ys ih =>
      rw [compactFields, ih y]
      · simp [members, following, fieldText]
      · exact fun h => by cases h

/-! ### Values -/

/-- Values without doubles. -/
inductive Exact : Json → Prop
  | null : Exact null
  | bool (value : Bool) : Exact (bool value)
  | integer (value : Int) : Exact (integer value)
  | text (value : String) : Exact (text value)
  | array {items : List Json} (h : ∀ x ∈ items, Exact x) : Exact (array items)
  | object {fields : List (String × Json)} (h : ∀ field ∈ fields, Exact field.2) :
    Exact (object fields)

/-- What a value is printed as. -/
inductive Kind where
  | null
  | truth
  | number
  | text
  | array
  | object

def kind : Json → Kind
  | null => .null
  | bool _ => .truth
  | integer _ | double _ => .number
  | text _ => .text
  | array _ => .array
  | object _ => .object

def kindOf (c : Char) : Option Kind :=
  if c.isDigit ∨ c = '-' then some .number
  else if c = 'n' then some .null
  else if c = 't' ∨ c = 'f' then some .truth
  else if c = '"' then some .text
  else if c = '[' then some .array
  else if c = '\x7b' then some .object
  else none

theorem Exact.exists_kindOf {x : Json} (h : x.Exact) :
    ∃ c cs, x.compact = c :: cs ∧ kindOf c = some x.kind := by
  cases h with
  | null => exact ⟨_, _, rfl, rfl⟩
  | bool value => cases value <;> exact ⟨_, _, rfl, rfl⟩
  | integer value =>
    rw [compact, integerText]
    split_ifs
    · exact ⟨_, _, rfl, rfl⟩
    · obtain ⟨c, cs, heq, hc⟩ := exists_digit_toDigits value.natAbs
      exact ⟨c, cs, heq, if_pos (.inl hc)⟩
  | text value => exact ⟨_, _, rfl, rfl⟩
  | array h => exact ⟨_, _, rfl, rfl⟩
  | object h => exact ⟨_, _, rfl, rfl⟩

theorem Exact.exists_ne_close {x : Json} (h : x.Exact) : ∃ c ≠ ']', ∃ cs, x.compact = c :: cs := by
  obtain ⟨c, cs, htext, hkind⟩ := h.exists_kindOf
  refine ⟨c, ?_, cs, htext⟩
  rintro rfl
  cases hkind

theorem Exact.kind_eq {x y : Json} (hx : x.Exact) (hy : y.Exact) {r r' : List Char}
    (h : x.compact ++ r = y.compact ++ r') : x.kind = y.kind := by
  obtain ⟨c, cs, hxtext, hxkind⟩ := hx.exists_kindOf
  obtain ⟨c', cs', hytext, hykind⟩ := hy.exists_kindOf
  rw [hxtext, hytext] at h
  obtain ⟨rfl, -⟩ := List.cons.inj h
  exact Option.some.inj (hxkind.symm.trans hykind)

theorem toldApart_fieldText {field field' : String × Json}
    (h : ToldApart compact field.2 field'.2) : ToldApart fieldText field field' := by
  intro r r' hr hr' heq
  simp only [fieldText, List.append_assoc, List.cons_append] at heq
  obtain ⟨hname, heq⟩ := quoted_append_inj heq
  obtain ⟨hvalue, hrest⟩ := h hr hr' (List.cons.inj heq).2
  exact ⟨Prod.ext hname hvalue, hrest⟩

theorem toldApart_bool (value value' : Bool) : ToldApart compact (bool value) (bool value') := by
  intro r r' _ _ h
  cases value <;> cases value' <;> simp_all [compact]

/-- **Compact texts are told apart.** -/
theorem toldApart_compact {x y : Json} (hx : x.Exact) (hy : y.Exact) : ToldApart compact x y := by
  induction hx generalizing y with
  | null =>
    intro r r' hr hr' h
    have hkind := Exact.null.kind_eq hy h
    cases hy
    case null => exact ⟨rfl, List.append_cancel_left h⟩
    all_goals cases hkind
  | bool value =>
    intro r r' hr hr' h
    have hkind := (Exact.bool value).kind_eq hy h
    cases hy
    case bool value' => exact toldApart_bool value value' hr hr' h
    all_goals cases hkind
  | integer value =>
    intro r r' hr hr' h
    have hkind := (Exact.integer value).kind_eq hy h
    cases hy
    case integer value' =>
      obtain ⟨rfl, hrest⟩ := integerText_append_inj hr hr' h
      exact ⟨rfl, hrest⟩
    all_goals cases hkind
  | text value =>
    intro r r' hr hr' h
    have hkind := (Exact.text value).kind_eq hy h
    cases hy
    case text value' =>
      obtain ⟨rfl, hrest⟩ := quoted_append_inj h
      exact ⟨rfl, hrest⟩
    all_goals cases hkind
  | @array items hitems ih =>
    intro r r' hr hr' h
    have hkind := (Exact.array hitems).kind_eq hy h
    cases hy
    case array items' hitems' =>
      rw [compact, compact, compactItems_eq, compactItems_eq] at h
      have hexact (x) (hx : x ∈ items ++ items') : x.Exact :=
        (List.mem_append.mp hx).elim (hitems x) (hitems' x)
      obtain ⟨rfl, hrest⟩ := members_append_inj rfl (by decide)
        (fun x hx => (hexact x hx).exists_ne_close)
        (fun x hx y hy => ih x hx (hitems' y hy)) (List.cons.inj h).2
      exact ⟨rfl, hrest⟩
    all_goals cases hkind
  | @object fields hfields ih =>
    intro r r' hr hr' h
    have hkind := (Exact.object hfields).kind_eq hy h
    cases hy
    case object fields' hfields' =>
      rw [compact, compact, compactFields_eq, compactFields_eq] at h
      obtain ⟨rfl, hrest⟩ := members_append_inj rfl (by decide)
        (fun _ _ => ⟨'"', by decide, _, rfl⟩)
        (fun x hx y hy => toldApart_fieldText (ih x hx (hfields' y hy))) (List.cons.inj h).2
      exact ⟨rfl, hrest⟩
    all_goals cases hkind

end ObjectLedger.Json
