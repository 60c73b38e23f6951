import ObjectLedger.Proofs.Transaction.Canonical

/-!
# What a decoded transaction leaves open

A decoded transaction keeps its types as text, and the bytes have them as type tags. Together with the
tags it leaves no choice of bytes; so two byte strings are decoded alike only if their tags print
alike, and they differ just where the tags do. With identifiers for names the tags can be read off the
text, and then one transaction stands for one byte string. Without them it may stand for several.
-/

namespace ObjectLedger

theorem TypeTag.eq_of_texts_eq {ts ts' : List TypeTag} (hts : ∀ t ∈ ts, t.HasIdentifiers)
    (hts' : ∀ t ∈ ts', t.HasIdentifiers) (h : ts.map text = ts'.map text) : ts = ts' := by
  have hparsed := Wire.Reader.parsedTypes_texts hts
  rw [h, Wire.Reader.parsedTypes_texts hts'] at hparsed
  exact (Except.ok.inj hparsed).symm

namespace Wire.Reader

/-! ### One byte string for a value with its type tags -/

theorem CommandBytes.eq_of_encoded {c : Command} {bs bs' : Bytes} (hc : Wire.command c = .ok bs)
    (h : CommandBytes c [] bs') : bs = bs' :=
  Except.ok.inj (hc.symm.trans (h.spelling.2 (List.forall_mem_nil _)))

theorem CommandBytes.unique {c : Command} {ts : List TypeTag} {bs bs' : Bytes}
    (h : CommandBytes c ts bs) (h' : CommandBytes c ts bs') : bs = bs' := by
  cases h with
  | untyped _ hc => exact h'.eq_of_encoded hc
  | moveCall hpackage htexts =>
    cases h' with
    | moveCall hpackage' =>
      rw [hpackage] at hpackage'
      cases hpackage'
      rfl
    | untyped _ hc => exact ((CommandBytes.moveCall hpackage htexts).eq_of_encoded hc).symm
  | makeMoveVec =>
    cases h' with
    | makeMoveVec => rfl

/-- Tags in a row fall to the commands by the number of types that each has. -/
theorem commandBytes_unique {tagged tagged' : List (Command × List TypeTag)}
    {pieces pieces' : List Bytes}
    (h : List.Forall₂ (fun x bs => CommandBytes x.1 x.2 bs) tagged pieces)
    (h' : List.Forall₂ (fun x bs => CommandBytes x.1 x.2 bs) tagged' pieces')
    (hcommands : tagged.map Prod.fst = tagged'.map Prod.fst)
    (htags : tagged.flatMap Prod.snd = tagged'.flatMap Prod.snd) : pieces = pieces' := by
  -- On the first list; the number of types of a command is that of its tags in both.
  induction h generalizing tagged' pieces' with
  | nil =>
    cases h' with
    | nil => rfl
    | cons => cases hcommands
  | @cons x bs tagged pieces hx _ ih =>
    cases h' with
    | nil => cases hcommands
    | @cons x' bs' tagged' pieces' hx' hrest =>
      obtain ⟨c, ts⟩ := x
      obtain ⟨c', ts'⟩ := x'
      obtain ⟨rfl, hrestCommands⟩ := List.cons.inj hcommands
      have hcount : ts.length = ts'.length := by
        have htexts := hx.spelling.1.symm.trans hx'.spelling.1
        simpa using congrArg List.length htexts
      obtain ⟨rfl, hrestTags⟩ := List.append_inj htags hcount
      rw [hx.unique hx', ih hrest hrestCommands hrestTags]

theorem KindBytes.unique {kind : List Input × List Command} {ts : List TypeTag} {bs bs' : Bytes}
    (h : KindBytes kind ts bs) (h' : KindBytes kind ts bs') : bs = bs' := by
  obtain ⟨inputs, tagged, pieces, hinputs, hpieces, hcommands, rfl, rfl⟩ := h
  obtain ⟨inputs', tagged', pieces', hinputs', hpieces', hcommands', htags, rfl⟩ := h'
  have hinput : inputs = inputs' := by
    refine List.right_unique_forall₂' (fun i piece piece' hi hi' => ?_) hinputs hinputs'
    exact Except.ok.inj ((hi 0).symm.trans (hi' 0))
  have hlength : tagged.length = tagged'.length := by
    simpa using congrArg List.length (hcommands.symm.trans hcommands')
  rw [hinput, hlength, commandBytes_unique hpieces hpieces' (hcommands.symm.trans hcommands') htags]

theorem TransactionBytes.unique {tx : Transaction} {ts : List TypeTag} {bs bs' : Bytes}
    (h : TransactionBytes tx ts bs) (h' : TransactionBytes tx ts bs') : bs = bs' := by
  obtain ⟨sender, owner, payment, price, budget, kind, hsender, hgas, hkind, rfl⟩ := h
  obtain ⟨_, _, _, _, _, _, hsender', hgas', hkind', rfl⟩ := h'
  cases hsender.symm.trans hsender'
  cases hgas.symm.trans hgas'
  rw [hkind.unique hkind']

end Wire.Reader

/-! ### Main statement -/

namespace Transaction

theorem transactionBytes_of_decode {bytes : List UInt8} {tx : Transaction}
    (h : decode bytes = .ok tx) : Wire.Reader.TransactionBytes tx (typeTags bytes) bytes :=
  Wire.Reader.tagged_transactionBytes.decode h

/-- **A transaction with its type tags stands for one byte string**: two that are decoded to it have
tags of the same text, and are the same just when the tags are. Where modules and names in the tags
are identifiers, the text tells tags apart, and no two byte strings are decoded alike. -/
theorem eq_iff_typeTags_of_decode (bytes bytes' : List UInt8) (tx : Transaction)
    (h : decode bytes = .ok tx) (h' : decode bytes' = .ok tx) :
    (typeTags bytes).map TypeTag.text = (typeTags bytes').map TypeTag.text ∧
      (bytes = bytes' ↔ typeTags bytes = typeTags bytes') ∧
      ((∀ t ∈ typeTags bytes ++ typeTags bytes', t.HasIdentifiers) → bytes = bytes') := by
  have hbytes := transactionBytes_of_decode h
  have hbytes' := transactionBytes_of_decode h'
  have htexts : (typeTags bytes).map TypeTag.text = (typeTags bytes').map TypeTag.text :=
    hbytes.spelling.1.symm.trans hbytes'.spelling.1
  have heq : typeTags bytes = typeTags bytes' → bytes = bytes' := fun htags =>
    (htags ▸ hbytes).unique hbytes'
  refine ⟨htexts, ⟨congrArg typeTags, heq⟩, fun hidentifiers => heq ?_⟩
  obtain ⟨hts, hts'⟩ := List.forall_mem_append.mp hidentifiers
  exact TypeTag.eq_of_texts_eq hts hts' htexts

/-- The bytes of a transaction that makes an empty vector of a type. -/
def emptyVectorBytes (type : TypeTag) : List UInt8 :=
  [0, 0, 0, 1, 5, 1] ++ Wire.typeTag type ++ [0] ++ Wire.address (.ofUInt64 1) ++ [0] ++
    Wire.address (.ofUInt64 1) ++ Wire.u64 1000 ++ Wire.u64 50000 ++ [0]

def withParam : TypeTag := .struct (.ofUInt64 2) "m" "N" [.u8]

/-- A struct without one, whose name looks as if it had. -/
def withBrackets : TypeTag := .struct (.ofUInt64 2) "m" "N<u8>" []

def emptyVector : Transaction where
  sender := some (.ofUInt64 1)
  gas := ⟨some [], some (.ofUInt64 1), some 1000, some 50000⟩
  commands := [.makeMoveVec (some withParam.text) []]

theorem decode_withParam : decode (emptyVectorBytes withParam) = .ok emptyVector := by
  decide +kernel

theorem decode_withBrackets : decode (emptyVectorBytes withBrackets) = .ok emptyVector := by
  decide +kernel

theorem emptyVectorBytes_ne : emptyVectorBytes withBrackets ≠ emptyVectorBytes withParam := by
  decide +kernel

/-- The tags print alike and are two; one of the names is no identifier. -/
theorem eq_iff_typeTags_of_decode_emptyVector :
    decode (emptyVectorBytes withBrackets) = .ok emptyVector ∧
      decode (emptyVectorBytes withParam) = .ok emptyVector ∧
      (typeTags (emptyVectorBytes withBrackets)).map TypeTag.text =
        (typeTags (emptyVectorBytes withParam)).map TypeTag.text ∧
      typeTags (emptyVectorBytes withBrackets) ≠ typeTags (emptyVectorBytes withParam) ∧
      (∀ t ∈ typeTags (emptyVectorBytes withParam), t.HasIdentifiers) ∧
      ¬∀ t ∈ typeTags (emptyVectorBytes withBrackets), t.HasIdentifiers := by
  obtain ⟨htexts, hiff, hidentifiers⟩ := eq_iff_typeTags_of_decode _ _ _ decode_withBrackets
    decode_withParam
  have htags : typeTags (emptyVectorBytes withParam) = [withParam] := by decide +kernel
  have hparam : ∀ t ∈ typeTags (emptyVectorBytes withParam), t.HasIdentifiers := by
    have hstruct : withParam.HasIdentifiers := ⟨by decide, trivial, trivial⟩
    simp [htags, hstruct]
  refine ⟨decode_withBrackets, decode_withParam, htexts, fun h => emptyVectorBytes_ne (hiff.mpr h),
    hparam, fun hbrackets => emptyVectorBytes_ne (hidentifiers ?_)⟩
  exact List.forall_mem_append.mpr ⟨hbrackets, hparam⟩

/-- Two byte strings, and two digests, stand for one transaction. -/
theorem decode_not_injective :
    ∃ bytes bytes' tx, bytes ≠ bytes' ∧ decode bytes = .ok tx ∧ decode bytes' = .ok tx ∧
      digest bytes ≠ digest bytes' :=
  ⟨_, _, emptyVector, emptyVectorBytes_ne, decode_withBrackets, decode_withParam, by decide +kernel⟩

end Transaction

end ObjectLedger
