import ObjectLedger.Proofs.Transaction.RoundTrip
import ObjectLedger.Proofs.TypeTag.Reading
import ObjectLedger.Proofs.Wire.Refusing

/-!
# Types with too many levels

The encoder writes types of any depth, the decoder opens a fixed number of levels. Between lengths of
32 bits this is the only bound on which the two part ways: what was encoded is decoded when its types
keep to that number of levels, and is refused for them when they do not.
-/

namespace ObjectLedger

/-! ### Levels and lengths of a transaction -/

/-- No type of a command has more levels below its root. -/
def Command.NestedWithin (depth : Nat) (c : Command) : Prop :=
  ∀ text ∈ c.typeTexts, ∀ t, TypeTag.parse text = .ok t → t.height ≤ depth

/-- The types of a command have texts with lengths of 32 bits. -/
def Command.ShortTypes (c : Command) : Prop :=
  ∀ text ∈ c.typeTexts, (utf8Bytes text).length < 2 ^ 32

theorem Command.ShortTypes.readable {c : Command} (h : c.ShortTypes)
    (hdepth : c.NestedWithin Wire.Reader.typeDepth) : c.TypesReadable := by
  intro text htext t hparse
  exact ⟨TypeTag.short_of_parse hparse (h text htext), hdepth text htext t hparse⟩

theorem Command.exists_of_not_nestedWithin {c : Command} {depth : Nat} (h : ¬c.NestedWithin depth) :
    ∃ text ∈ c.typeTexts, ∃ t, TypeTag.parse text = .ok t ∧ depth < t.height := by
  simp only [NestedWithin, not_forall, Nat.not_le] at h
  obtain ⟨text, htext, t, hparse, hheight⟩ := h
  exact ⟨text, htext, t, hparse, hheight⟩

namespace Transaction

/-- No type of a transaction has more levels below its root. -/
def NestedWithin (depth : Nat) (tx : Transaction) : Prop :=
  ∀ c ∈ tx.commands, c.NestedWithin depth

/-- Every list, byte vector and string has a length of 32 bits, the texts of types included. -/
structure Short (tx : Transaction) : Prop where
  inputs_length : tx.inputs.length < 2 ^ 32
  inputs : ∀ i ∈ tx.inputs, i.Short
  commands_length : tx.commands.length < 2 ^ 32
  commands : ∀ c ∈ tx.commands, c.Short
  types : ∀ c ∈ tx.commands, c.ShortTypes
  payment : ∀ payment, tx.gas.payment = some payment → payment.length < 2 ^ 32

theorem Short.readable {tx : Transaction} (h : tx.Short)
    (hdepth : tx.NestedWithin Wire.Reader.typeDepth) : tx.Readable where
  inputs_length := h.inputs_length
  inputs := h.inputs
  commands_length := h.commands_length
  commands := h.commands
  types c hc := (h.types c hc).readable (hdepth c hc)
  payment := h.payment

end Transaction

theorem TypeTag.exists_of_lt_paramsHeight {params : List TypeTag} {n : Nat}
    (h : n < paramsHeight params) : ∃ p ∈ params, n ≤ p.height := by
  induction params with
  | nil => cases h
  | cons p params ih =>
    rw [paramsHeight] at h
    by_cases hp : n ≤ p.height
    · exact ⟨p, List.mem_cons_self, hp⟩
    · obtain ⟨q, hq, hn⟩ := ih (by omega)
      exact ⟨q, List.mem_cons_of_mem p hq, hn⟩

namespace Wire.Reader

/-! ### Types -/

theorem reads_typeTagWithin {t : TypeTag} {levels : Nat} (hshort : t.Short) (h : t.height < levels) :
    (typeTagWithin levels).Reads (Wire.typeTag t) t :=
  (readsIf_typeTagWithin t levels).reads ⟨h, hshort⟩

theorem fails_typeTagWithin {t : TypeTag} (hshort : t.Short) {levels : Nat} (h : levels ≤ t.height) :
    (typeTagWithin levels).Fails (Wire.typeTag t) .typeTooDeep := by
  induction t using TypeTag.byParts generalizing levels with
  | primitive t ht =>
    have hzero : t.height = 0 := by
      cases t
      case vector => exact ht.elim
      case struct => exact ht.elim
      all_goals rfl
    obtain rfl : levels = 0 := by omega
    exact fails_fail _ _
  | vector element ih =>
    cases levels with
    | zero => exact fails_fail _ _
    | succ levels =>
      rw [TypeTag.height] at h
      have helement : (typeTagWithin levels).Fails (Wire.typeTag element) .typeTooDeep :=
        ih hshort (by omega)
      exact .behindVariant (by decide) (helement.bind_nil _)
  | struct owner module name params ih =>
    cases levels with
    | zero => exact fails_fail _ _
    | succ levels =>
      obtain ⟨⟨hmodule, hname, hcount⟩, hparams⟩ := hshort
      rw [TypeTag.height] at h
      have hseq : (seq (typeTagWithin levels)).Fails (Wire.seq Wire.typeTag params) .typeTooDeep := by
        apply fails_seq hcount typeTag_ne_nil
        · intro p hp
          by_cases hlevels : p.height < levels
          · exact .inl (reads_typeTagWithin (hparams.of_mem hp) hlevels)
          · exact .inr (ih p hp (hparams.of_mem hp) (by omega))
        · obtain ⟨p, hp, hheight⟩ := TypeTag.exists_of_lt_paramsHeight h
          exact ⟨p, hp, ih p hp (hparams.of_mem hp) hheight⟩
      rw [Wire.seq, ← typeTags_eq_flatMap] at hseq
      rw [Wire.typeTag]
      simp only [List.append_assoc]
      exact .behindVariant (by decide) ((reads_address owner).bindFails ((reads_string hmodule).bindFails
        ((reads_string hname).bindFails (hseq.bind_nil _))))

theorem reads_or_fails_type {text : String} {t : TypeTag} (hparse : TypeTag.parse text = .ok t)
    (hshort : (utf8Bytes text).length < 2 ^ 32) :
    (t.height ≤ typeDepth → Reader.typeTag.Reads (Wire.typeTag t) t) ∧
      (typeDepth < t.height → Reader.typeTag.Fails (Wire.typeTag t) .typeTooDeep) := by
  have ht := TypeTag.short_of_parse hparse hshort
  constructor
  · intro h
    exact reads_typeTagWithin ht (Nat.lt_succ_of_le h)
  · intro h
    exact fails_typeTagWithin ht h

theorem fails_types {texts : List String} {types : List TypeTag}
    (h : texts.mapM Wire.parsedType = .ok types) (hlen : texts.length < 2 ^ 32)
    (hshort : ∀ text ∈ texts, (utf8Bytes text).length < 2 ^ 32)
    (hdeep : ∃ text ∈ texts, ∃ t, TypeTag.parse text = .ok t ∧ typeDepth < t.height) :
    (seq Reader.typeTag).Fails (Wire.seq Wire.typeTag types) .typeTooDeep := by
  have hparsed := Except.mapM_eq_ok.mp h
  apply fails_seq (hparsed.length_eq ▸ hlen) typeTag_ne_nil
  · intro t ht
    obtain ⟨text, htext, hparse⟩ := hparsed.exists_left ht
    obtain ⟨hread, hfail⟩ := reads_or_fails_type (parsedType_eq_ok.mp hparse).2 (hshort text htext)
    exact (Nat.lt_or_ge typeDepth t.height).symm.imp hread hfail
  · obtain ⟨text, htext, t, hparse, hheight⟩ := hdeep
    obtain ⟨t', ht', hparse'⟩ := hparsed.flip.exists_left htext
    obtain rfl : t = t' := Except.ok.inj (hparse.symm.trans (parsedType_eq_ok.mp hparse').2)
    exact ⟨t, ht', (reads_or_fails_type hparse (hshort text htext)).2 hheight⟩

/-! ### Commands and transactions -/

theorem fails_command {c : Command} {bs : Bytes} (h : Wire.command c = .ok bs) (hshort : c.Short)
    (htypes : c.ShortTypes) (hdeep : ¬c.NestedWithin typeDepth) :
    Reader.command.Fails bs .typeTooDeep := by
  obtain ⟨text, htext, t, hparse, hheight⟩ := Command.exists_of_not_nestedWithin hdeep
  cases c with
  | moveCall call =>
    obtain ⟨package, types, -, hparsed, rfl⟩ := command_moveCall_eq_ok.mp h
    obtain ⟨hmodule, hfunction, hcount, -⟩ := hshort
    have hfail := fails_types hparsed hcount htypes ⟨text, htext, t, hparse, hheight⟩
    exact .behindVariant (by decide) ((reads_address package).bindFails ((reads_string hmodule).bindFails
      ((reads_string hfunction).bindFails (hfail.bind _ _))))
  | makeMoveVec elementType elements =>
    obtain ⟨type, hparsed, rfl⟩ := command_makeMoveVec_eq_ok.mp h
    cases Except.optionMapM_eq_ok.mp hparsed with
    | none => cases htext
    | @some text' t' ht' =>
      obtain rfl : text = text' := by simpa [Command.typeTexts] using htext
      obtain rfl : t = t' := Except.ok.inj (hparse.symm.trans (parsedType_eq_ok.mp ht').2)
      have hfail := (reads_or_fails_type hparse (htypes text htext)).2 hheight
      exact .behindVariant (by decide) ((fails_some hfail).bind _ _)
  | _ => cases htext

theorem fails_kind {tx : Transaction} {bs : Bytes} (h : tx.encodeKind = .ok bs) (hshort : tx.Short)
    (hdeep : ¬tx.NestedWithin typeDepth) : Reader.kind.Fails bs .typeTooDeep := by
  obtain ⟨inputPieces, commandPieces, hinputs, hcommands, rfl⟩ := Transaction.encodeKind_eq_ok.mp h
  have hread : (seq Reader.input).Reads (Wire.length inputPieces.length ++ inputPieces.flatten)
      tx.inputs :=
    (readsIf_inputs (Q := True) hinputs (fun _ => hshort.inputs_length)
      fun _ => hshort.inputs).reads trivial
  have hfail : (seq Reader.command).Fails
      (Wire.length commandPieces.length ++ commandPieces.flatten) .typeTooDeep := by
    apply fails_pieces
    · exact hcommands.length_eq ▸ hshort.commands_length
    · intro bs hbs
      obtain ⟨c, -, hc⟩ := hcommands.exists_left hbs
      exact (readsIf_command hc).choose_spec.2.2
    · intro bs hbs
      obtain ⟨c, hmem, hc⟩ := hcommands.exists_left hbs
      obtain ⟨c', -, hreads, -⟩ := readsIf_command hc
      by_cases hnested : c.NestedWithin typeDepth
      · exact .inl ⟨c', hreads.reads ⟨hshort.commands c hmem, (hshort.types c hmem).readable hnested⟩⟩
      · exact .inr (fails_command hc (hshort.commands c hmem) (hshort.types c hmem) hnested)
    · simp only [Transaction.NestedWithin, not_forall] at hdeep
      obtain ⟨c, hmem, hnested⟩ := hdeep
      obtain ⟨bs, hbs, hc⟩ := hcommands.flip.exists_left hmem
      exact ⟨bs, hbs, fails_command hc (hshort.commands c hmem) (hshort.types c hmem) hnested⟩
  exact .behindVariant (by decide) (hread.bindFails (hfail.bind_nil _))

theorem fails_transaction {tx : Transaction} {bs : Bytes} (h : tx.encode = .ok bs) (hshort : tx.Short)
    (hdeep : ¬tx.NestedWithin typeDepth) : Reader.transaction.Fails bs .typeTooDeep := by
  obtain ⟨_, _, _, _, _, kind, -, -, hkind, rfl⟩ := Transaction.encode_eq_ok.mp h
  exact .behindVariant (by decide) ((fails_kind hkind hshort hdeep).bind _ _)

end Wire.Reader

/-! ### Main statement -/

namespace Transaction

/-- **What is encoded is decoded, unless a type is too deep for the decoder.** With lengths of 32 bits
the bytes of a transaction give it back with its types in canonical form when no type has more levels
than are opened; when one has, they are refused for that. -/
theorem decode_encode_short (tx : Transaction) (bytes : List UInt8) (hshort : tx.Short)
    (h : tx.encode = .ok bytes) :
    (tx.NestedWithin Wire.Reader.typeDepth →
      ∃ tx', tx.normalizeTypes = .ok tx' ∧ decode bytes = .ok tx') ∧
    (¬tx.NestedWithin Wire.Reader.typeDepth → decode bytes = .error .typeTooDeep) := by
  constructor
  · intro hnested
    obtain ⟨tx', hnormal, hreads⟩ := Wire.Reader.readsIf_transaction h
    exact ⟨tx', hnormal, (hreads.reads (hshort.readable hnested)).decode⟩
  · intro hdeep
    exact (Wire.Reader.fails_transaction h hshort hdeep).decode

/-! ### Vectors in vectors -/

/-- Bytes in a number of vectors, one in the other. -/
def nestedVector : Nat → TypeTag
  | 0 => .u8
  | n + 1 => .vector (nestedVector n)

theorem height_nestedVector (n : Nat) : (nestedVector n).height = n := by
  induction n with
  | zero => rfl
  | succ n ih => rw [nestedVector, TypeTag.height, ih]

theorem parse_nestedVector (n : Nat) : TypeTag.parse (nestedVector n).text = .ok (nestedVector n) := by
  apply TypeTag.parse_text
  induction n with
  | zero => trivial
  | succ n ih => exact ih

theorem chars_nestedVector_succ (n : Nat) : (nestedVector (n + 1)).chars =
    "vector<".toList ++ ((nestedVector n).chars ++ ['>']) :=
  List.append_assoc _ _ _

theorem length_chars_nestedVector (n : Nat) : (nestedVector n).chars.length = 8 * n + 2 := by
  induction n with
  | zero => rfl
  | succ n ih =>
    rw [chars_nestedVector_succ, List.length_append, List.length_append, ih]
    simp
    omega

theorem ascii_nestedVector (n : Nat) : ∀ c ∈ (nestedVector n).chars, c.toNat < 128 := by
  induction n with
  | zero =>
    show ∀ c ∈ "u8".toList, c.toNat < 128
    simp
  | succ n ih =>
    have hopen : ∀ c ∈ "vector<".toList, c.toNat < 128 := by simp
    have hclose : ∀ c ∈ ['>'], c.toNat < 128 := by simp
    intro c hc
    rw [chars_nestedVector_succ, List.mem_append, List.mem_append] at hc
    rcases hc with hc | hc | hc
    · exact hopen c hc
    · exact ih c hc
    · exact hclose c hc

theorem length_nestedVector (n : Nat) : (utf8Bytes (nestedVector n).text).length = 8 * n + 2 := by
  have hascii := ascii_nestedVector n
  have hlen := length_chars_nestedVector n
  rw [← String.toList_ofList (l := (nestedVector n).chars)] at hascii hlen
  rw [← hlen]
  exact length_utf8Bytes_of_ascii hascii

theorem nestedWithin_vectorOf {n depth : Nat} :
    (vectorOf (nestedVector n).text).NestedWithin depth ↔ n ≤ depth := by
  simp [NestedWithin, Command.NestedWithin, vectorOf, Command.typeTexts, parse_nestedVector,
    height_nestedVector]

theorem short_vectorOf {n : Nat} (h : 8 * n + 2 < 2 ^ 32) :
    (vectorOf (nestedVector n).text).Short where
  inputs_length := by simp [vectorOf]
  inputs := by simp [vectorOf, Input.Short]
  commands_length := by simp [vectorOf]
  commands := by simp [vectorOf, Command.Short]
  types := by simpa [vectorOf, Command.ShortTypes, Command.typeTexts, length_nestedVector] using h
  payment := by simp [vectorOf]

theorem encode_vectorOf_nestedVector (n : Nat) :
    ∃ bytes, (vectorOf (nestedVector n).text).encode = .ok bytes := by
  have hname : (nestedVector n).text.contains '@' = false := by
    apply TypeTag.contains_at_text
    exact TypeTag.hasIdentifiers_of_parse (parse_nestedVector n)
  have hparsed := Wire.parsedType_eq_ok.mpr ⟨hname, parse_nestedVector n⟩
  have hvector : Wire.command (.makeMoveVec (some (nestedVector n).text) [.nestedResult 0 0]) = .ok _ :=
    Wire.command_makeMoveVec_eq_ok.mpr ⟨_, Except.optionMapM_eq_ok.mpr (.some hparsed), rfl⟩
  have hkind : (vectorOf (nestedVector n).text).encodeKind = .ok _ :=
    encodeKind_eq_ok.mpr ⟨_, _, .cons rfl (.cons rfl .nil), .cons rfl (.cons hvector .nil), rfl⟩
  exact ⟨_, encode_eq_ok.mpr ⟨_, _, _, _, _, _, rfl, rfl, hkind, rfl⟩⟩

/-- The last type that is read, and the first one that is not. -/
theorem decode_encode_short_nestedVector :
    (∃ bytes, (vectorOf (nestedVector 64).text).Short ∧
      (vectorOf (nestedVector 64).text).encode = .ok bytes ∧
      decode bytes = .ok (vectorOf (nestedVector 64).text)) ∧
    ∃ bytes, (vectorOf (nestedVector 65).text).Short ∧
      (vectorOf (nestedVector 65).text).encode = .ok bytes ∧
      decode bytes = .error .typeTooDeep := by
  have hread : (vectorOf (nestedVector 64).text).Short := short_vectorOf (by decide)
  have hdeep : (vectorOf (nestedVector 65).text).Short := short_vectorOf (by decide)
  constructor
  · obtain ⟨bytes, hbytes⟩ := encode_vectorOf_nestedVector 64
    obtain ⟨tx', hnormal, hdecode⟩ := (decode_encode_short _ bytes hread hbytes).1
      (nestedWithin_vectorOf.mpr (by decide))
    have hcanonical : (vectorOf (nestedVector 64).text).CanonicalTypes := by
      simp [CanonicalTypes, vectorOf, Command.typeTexts, TypeTag.normalize, parse_nestedVector,
        Except.map]
    rw [normalizeTypes_of_canonical hcanonical] at hnormal
    cases hnormal
    exact ⟨bytes, hread, hbytes, hdecode⟩
  · obtain ⟨bytes, hbytes⟩ := encode_vectorOf_nestedVector 65
    refine ⟨bytes, hdeep, hbytes, (decode_encode_short _ bytes hdeep hbytes).2 fun h => ?_⟩
    exact absurd (nestedWithin_vectorOf.mp h) (by decide)

/-- A transaction is encoded to bytes that no transaction is decoded from. -/
theorem not_decode_nestedVector :
    ∃ bytes, (vectorOf (nestedVector 65).text).Short ∧
      (vectorOf (nestedVector 65).text).encode = .ok bytes ∧ ∀ tx, decode bytes ≠ .ok tx := by
  have hshort : (vectorOf (nestedVector 65).text).Short := short_vectorOf (by decide)
  obtain ⟨bytes, hbytes⟩ := encode_vectorOf_nestedVector 65
  have hdeep : ¬(vectorOf (nestedVector 65).text).NestedWithin Wire.Reader.typeDepth := fun h =>
    absurd (nestedWithin_vectorOf.mp h) (by decide)
  refine ⟨bytes, hshort, hbytes, fun tx htx => ?_⟩
  have herror := (Wire.Reader.fails_transaction hbytes hshort hdeep).decode
  rw [show Wire.Reader.transaction.decode bytes = .ok tx from htx] at herror
  cases herror

end Transaction

end ObjectLedger
