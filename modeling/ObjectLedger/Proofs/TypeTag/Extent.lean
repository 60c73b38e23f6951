import ObjectLedger.Proofs.TypeTag.Spelling

/-!
# How large a spelled type is

Each bracket and each parameter takes a character of the text that spells a type, and the names of a struct
stand there as they are. So these names and the lists of parameters are no longer than the text. The names
are identifiers, which are ASCII, and their bytes are as few as their characters.
-/

namespace ObjectLedger

theorem utf8Bytes_eq_flatMap (s : String) :
    utf8Bytes s = s.toList.flatMap String.utf8EncodeChar := by
  have h := String.utf8Encode_toList (b := s)
  rw [utf8Bytes, String.toUTF8, ← h, List.utf8Encode]
  simp

theorem length_le_length_utf8Bytes (s : String) : s.toList.length ≤ (utf8Bytes s).length := by
  rw [utf8Bytes_eq_flatMap]
  induction s.toList with
  | nil => simp
  | cons c cs ih =>
    have hpos := c.utf8Size_pos
    rw [List.flatMap_cons, List.length_cons, List.length_append, String.length_utf8EncodeChar]
    omega

theorem length_utf8Bytes_of_ascii {s : String} (h : ∀ c ∈ s.toList, c.toNat < 128) :
    (utf8Bytes s).length = s.toList.length := by
  rw [utf8Bytes_eq_flatMap]
  generalize s.toList = cs at h
  induction cs with
  | nil => rfl
  | cons c cs ih =>
    obtain ⟨hc, hcs⟩ := List.forall_mem_cons.mp h
    have hone : c.utf8Size = 1 := by
      rw [Char.utf8Size_eq_one_iff, UInt32.le_iff_toNat_le]
      exact Nat.le_of_lt_succ hc
    rw [List.flatMap_cons, List.length_append, String.length_utf8EncodeChar, hone, ih hcs,
      List.length_cons, Nat.add_comm]

namespace TypeTag

/-! ### What holds of every struct -/

theorem everyStructIn_iff {P : String → String → Nat → Prop} {ps : List TypeTag} :
    EveryStructIn P ps ↔ ∀ p ∈ ps, p.EveryStruct P := by
  induction ps with
  | nil => simp [EveryStructIn]
  | cons p ps ih => simp [EveryStructIn, ih]

theorem EveryStruct.of_isPrimitive {P : String → String → Nat → Prop} {t : TypeTag}
    (h : t.IsPrimitive) : t.EveryStruct P := by
  cases t
  case vector => exact h.elim
  case struct => exact h.elim
  all_goals trivial

theorem EveryStruct.imp {P Q : String → String → Nat → Prop} (hPQ : ∀ m n c, P m n c → Q m n c)
    {t : TypeTag} (h : t.EveryStruct P) : t.EveryStruct Q := by
  induction t using byParts with
  | primitive t ht => exact .of_isPrimitive ht
  | vector element ih => exact ih h
  | struct owner module name params ih =>
    refine ⟨hPQ _ _ _ h.1, everyStructIn_iff.mpr fun p hp => ?_⟩
    exact ih p hp (h.2.of_mem hp)

/-! ### The text bounds the parts -/

/-- Identifiers in a struct and lengths of its parts are those of a text of `n` characters. -/
def Within (n : Nat) (module name : String) (count : Nat) : Prop :=
  (isIdentifier module.toList = true ∧ isIdentifier name.toList = true) ∧
    module.toList.length ≤ n ∧ name.toList.length ≤ n ∧ count ≤ n

theorem IsPath.within {owner : Address} {module name : String} {word : List Char} {n count : Nat}
    (h : IsPath owner module name word) (hword : word.length ≤ n) (hcount : count ≤ n) :
    Within n module name count := by
  obtain ⟨a, rfl, -, -, hmodule, hname⟩ := h
  simp only [List.length_append, List.length_cons] at hword
  exact ⟨⟨hmodule, hname⟩, by omega, by omega, hcount⟩

theorem length_le_of_spelledParams {ts : List TypeTag} {ds : List Char} (h : SpelledParams ts ds) :
    ts.length ≤ ds.length ∧ ∀ t ∈ ts, ∃ cs, Spelled t cs ∧ cs.length ≤ ds.length := by
  induction ts generalizing ds with
  | nil => cases h
  | cons t ts ih =>
    cases h with
    | last h =>
      simp only [List.length_append, List.length_singleton]
      exact ⟨by omega, List.forall_mem_singleton.mpr ⟨_, h, by omega⟩⟩
    | more h _ hrest =>
      obtain ⟨hlength, hall⟩ := ih hrest
      simp only [List.length_append, List.length_cons]
      refine ⟨by omega, List.forall_mem_cons.mpr ⟨⟨_, h, by omega⟩, fun t ht => ?_⟩⟩
      obtain ⟨cs, hcs, hle⟩ := hall t ht
      exact ⟨cs, hcs, by omega⟩

theorem within_of_spelled {n : Nat} {t : TypeTag} :
    ∀ {cs}, Spelled t cs → cs.length ≤ n → t.EveryStruct (Within n) := by
  induction t using byParts with
  | primitive t ht => exact fun _ _ => .of_isPrimitive ht
  | vector element ih =>
    intro cs h hn
    cases h with
    | word _ ht => exact ht.elim
    | vector _ _ h =>
      simp only [List.length_append, List.length_cons] at hn
      exact ih h (by omega)
  | struct owner module name params ih =>
    intro cs h hn
    cases h with
    | word _ ht => exact ht.elim
    | plain _ hpath =>
      rw [List.length_append] at hn
      refine ⟨hpath.within (by omega) (Nat.zero_le n), everyStructIn_iff.mpr ?_⟩
      exact fun p hp => absurd hp List.not_mem_nil
    | generic _ hpath _ h =>
      simp only [List.length_append, List.length_cons] at hn
      obtain ⟨hlength, hall⟩ := length_le_of_spelledParams h
      refine ⟨hpath.within (by omega) (by omega), everyStructIn_iff.mpr fun p hp => ?_⟩
      obtain ⟨cs, hcs, hle⟩ := hall p hp
      exact ih p hp hcs (by omega)

theorem within_of_spells {input : String} {t : TypeTag} (h : Spells t input) :
    t.EveryStruct (Within input.toList.length) := by
  obtain ⟨cs, after, hinput, hcs, -⟩ := h
  refine within_of_spelled hcs ?_
  rw [hinput, List.length_append]
  exact Nat.le_add_right _ _

theorem hasIdentifiers_of_spells {input : String} {t : TypeTag} (h : Spells t input) :
    t.HasIdentifiers :=
  (within_of_spells h).imp fun _ _ _ hwithin => hwithin.1

theorem toNat_lt_of_mem_identifier {cs : List Char} (h : isIdentifier cs = true) {c : Char}
    (hc : c ∈ cs) : c.toNat < 128 := by
  have hrange := toNat_of_isIdentPart (isIdentPart_of_mem h hc)
  omega

theorem short_of_spells {input : String} {t : TypeTag} (h : Spells t input)
    (hinput : (utf8Bytes input).length < 2 ^ 32) : t.Short := by
  have hlen := length_le_length_utf8Bytes input
  refine (within_of_spells h).imp ?_
  rintro module name count ⟨⟨hmodule, hname⟩, hmoduleLen, hnameLen, hcount⟩
  have hmoduleBytes := length_utf8Bytes_of_ascii fun c => toNat_lt_of_mem_identifier hmodule
  have hnameBytes := length_utf8Bytes_of_ascii fun c => toNat_lt_of_mem_identifier hname
  exact ⟨by omega, by omega, by omega⟩

end TypeTag

end ObjectLedger
