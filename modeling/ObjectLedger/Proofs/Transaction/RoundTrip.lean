import ObjectLedger.Proofs.Transaction.Encoding
import ObjectLedger.Proofs.TypeTag.Wire

/-!
# Transactions read back

What a transaction is encoded to is decoded to the same transaction, except that types come back in
canonical form. Lengths of 32 bits are all that the wire can say, and a type is read only down to a
fixed level, so both are bounded; beyond the bounds the bytes are refused, and not taken for another
transaction. The bounds on types are put on what their texts stand for, since the texts themselves are
not written.
-/

namespace ObjectLedger

/-! ### Types in canonical form -/

namespace Command

def normalizeTypes : Command → Except ParseError Command
  | moveCall call => do
    return moveCall { call with typeArguments := ← call.typeArguments.mapM TypeTag.normalize }
  | makeMoveVec elementType elements => do
    return makeMoveVec (← elementType.mapM TypeTag.normalize) elements
  | other => .ok other

end Command

namespace Transaction

def normalizeTypes (tx : Transaction) : Except ParseError Transaction := do
  return { tx with commands := ← tx.commands.mapM Command.normalizeTypes }

def CanonicalTypes (tx : Transaction) : Prop :=
  ∀ c ∈ tx.commands, ∀ text ∈ c.typeTexts, TypeTag.normalize text = .ok text

end Transaction

/-! ### Bounds -/

def Input.Short : Input → Prop
  | .pure bytes => bytes.length < 2 ^ 32
  | _ => True

namespace Command

/-- The strings and lists of a command have lengths of 32 bits, its types apart. -/
def Short : Command → Prop
  | moveCall call =>
    (utf8Bytes call.module).length < 2 ^ 32 ∧ (utf8Bytes call.function).length < 2 ^ 32 ∧
      call.typeArguments.length < 2 ^ 32 ∧ call.arguments.length < 2 ^ 32
  | transferObjects objects _ => objects.length < 2 ^ 32
  | splitCoins _ amounts => amounts.length < 2 ^ 32
  | mergeCoins _ sources => sources.length < 2 ^ 32
  | publish modules dependencies | upgrade modules dependencies _ _ =>
    modules.length < 2 ^ 32 ∧ (∀ m ∈ modules, m.length < 2 ^ 32) ∧ dependencies.length < 2 ^ 32
  | makeMoveVec _ elements => elements.length < 2 ^ 32
  | intent _ => True

/-- The types of a command are short as well, and have no level that is not read. -/
def TypesReadable (c : Command) : Prop :=
  ∀ text ∈ c.typeTexts, ∀ t, TypeTag.parse text = .ok t →
    t.Short ∧ t.height ≤ Wire.Reader.typeDepth

end Command

namespace Transaction

/-- The bounds on inputs and commands under which they are read back. -/
structure KindReadable (tx : Transaction) : Prop where
  inputs_length : tx.inputs.length < 2 ^ 32
  inputs : ∀ i ∈ tx.inputs, i.Short
  commands_length : tx.commands.length < 2 ^ 32
  commands : ∀ c ∈ tx.commands, c.Short
  types : ∀ c ∈ tx.commands, c.TypesReadable

/-- The bounds under which a whole transaction is read back. -/
structure Readable (tx : Transaction) : Prop extends tx.KindReadable where
  payment : ∀ payment, tx.gas.payment = some payment → payment.length < 2 ^ 32

end Transaction

namespace Wire

theorem argument_ne_nil (a : Argument) : argument a ≠ [] := by
  cases a <;> simp [argument, variant, Reader.uleb_ne_nil]

theorem bytes_ne_nil (bs : Bytes) : bytes bs ≠ [] := Reader.variant_append_ne_nil _ _

namespace Reader

/-! ### Arguments and inputs -/

theorem reads_argument (a : Argument) : Reader.argument.Reads (Wire.argument a) a := by
  cases a with
  | feeObject => exact Reads.variantAlone (by decide) (Reads.pure _)
  | input index => exact Reads.behindVariant (by decide) ((reads_u16 index).map _)
  | result command => exact Reads.behindVariant (by decide) ((reads_u16 command).map _)
  | nestedResult command index =>
    rw [Wire.argument, List.append_assoc]
    exact Reads.behindVariant (by decide) ((reads_u16 command).bind ((reads_u16 index).map _))

variable {Q : Prop}

theorem readsIf_arguments {as : List Argument} (h : Q → as.length < 2 ^ 32) :
    (seq Reader.argument).ReadsIf Q (Wire.seq Wire.argument as) as :=
  readsIf_seq h argument_ne_nil fun a _ => (reads_argument a).always

theorem readsIf_modules {modules : List (List UInt8)} (h : Q → modules.length < 2 ^ 32)
    (hshort : Q → ∀ m ∈ modules, m.length < 2 ^ 32) :
    (seq Reader.bytes).ReadsIf Q (Wire.seq Wire.bytes modules) modules :=
  readsIf_seq h bytes_ne_nil fun m hm => readsIf_bytes fun hQ => hshort hQ m hm

theorem readsIf_addresses {ids : List ObjectId} (h : Q → ids.length < 2 ^ 32) :
    (seq Reader.address).ReadsIf Q (Wire.seq Wire.address ids) ids :=
  readsIf_seq h address_ne_nil fun a _ => (reads_address a).always

theorem reads_objectArg (arg : ObjectArg) :
    Reader.objectArg.Reads (Wire.objectArg arg) arg := by
  cases arg with
  | owned ref => exact Reads.behindVariant (by decide) ((reads_objectRef ref).map _)
  | shared objectId version isMutable =>
    simp only [Wire.objectArg, List.append_assoc]
    exact Reads.behindVariant (by decide) ((reads_address objectId).bind
      ((reads_u64 version).bind ((reads_bool isMutable).map _)))
  | receiving ref => exact Reads.behindVariant (by decide) ((reads_objectRef ref).map _)

theorem readsIf_input {index : Nat} {i : Input} {bs : Bytes} (h : Wire.input index i = .ok bs) :
    Reader.input.ReadsIf i.Short bs i ∧ bs ≠ [] := by
  cases i with
  | pure bytes =>
    cases h
    exact ⟨.behindVariant (by decide) ((readsIf_bytes id).map _), variant_append_ne_nil _ _⟩
  | object arg =>
    cases h
    exact ⟨.behindVariant (by decide) ((reads_objectArg arg).always.map _), variant_append_ne_nil _ _⟩
  | unresolved u => cases h

/-! ### Commands -/

theorem readsIf_type {text : String} {t : TypeTag} (h : Wire.parsedType text = .ok t) :
    Reader.typeTag.ReadsIf (∀ t, TypeTag.parse text = .ok t → t.Short ∧ t.height ≤ typeDepth)
        (Wire.typeTag t) t ∧
      TypeTag.normalize text = .ok t.text := by
  have hparse := (parsedType_eq_ok.mp h).2
  refine ⟨(readsIf_typeTagWithin t _).mono fun hread => ?_, ?_⟩
  · obtain ⟨hshort, hheight⟩ := hread t hparse
    exact ⟨Nat.lt_succ_of_le hheight, hshort⟩
  · rw [TypeTag.normalize, hparse]
    rfl

theorem readsIf_types {texts : List String} {types : List TypeTag}
    (h : texts.mapM Wire.parsedType = .ok types) (hlen : Q → texts.length < 2 ^ 32)
    (hread : Q → ∀ text ∈ texts, ∀ t, TypeTag.parse text = .ok t →
      t.Short ∧ t.height ≤ typeDepth) :
    (seq Reader.typeTag).ReadsIf Q (Wire.seq Wire.typeTag types) types ∧
      texts.mapM TypeTag.normalize = .ok (types.map TypeTag.text) := by
  have hparsed := Except.mapM_eq_ok.mp h
  refine ⟨readsIf_seq (fun hQ => hparsed.length_eq ▸ hlen hQ) typeTag_ne_nil fun t ht => ?_, ?_⟩
  · obtain ⟨text, htext, ht⟩ := hparsed.exists_left ht
    exact (readsIf_type ht).1.mono fun hQ => hread hQ text htext
  · rw [Except.mapM_eq_ok, List.forall₂_map_right_iff]
    exact hparsed.imp fun text t ht => (readsIf_type ht).2

theorem readsIf_command {c : Command} {bs : Bytes} (h : Wire.command c = .ok bs) :
    ∃ c', c.normalizeTypes = .ok c' ∧ Reader.command.ReadsIf (c.Short ∧ c.TypesReadable) bs c' ∧
      bs ≠ [] := by
  cases c with
  | moveCall call =>
    obtain ⟨package, types, hpackage, hparsed, rfl⟩ := command_moveCall_eq_ok.mp h
    obtain ⟨hread, hnormal⟩ := readsIf_types
      (Q := (Command.moveCall call).Short ∧ (Command.moveCall call).TypesReadable) hparsed
      (fun hc => hc.1.2.2.1) fun hc => hc.2
    refine ⟨_, Except.bind_eq_ok.mpr ⟨_, hnormal, rfl⟩, ?_, variant_append_ne_nil _ _⟩
    rw [hpackage]
    exact .behindVariant (by decide) ((reads_address package).always.bind
      ((readsIf_string fun hc => hc.1.1).bind ((readsIf_string fun hc => hc.1.2.1).bind
        (hread.bind ((readsIf_arguments fun hc => hc.1.2.2.2).map _)))))
  | transferObjects objects recipient =>
    cases h
    rw [List.append_assoc]
    refine ⟨_, rfl, ?_, variant_append_ne_nil _ _⟩
    exact .behindVariant (by decide) ((readsIf_arguments And.left).bind
      ((reads_argument recipient).always.map _))
  | splitCoins coin amounts =>
    cases h
    rw [List.append_assoc]
    refine ⟨_, rfl, ?_, variant_append_ne_nil _ _⟩
    exact .behindVariant (by decide) ((reads_argument coin).always.bind
      ((readsIf_arguments And.left).map _))
  | mergeCoins destination sources =>
    cases h
    rw [List.append_assoc]
    refine ⟨_, rfl, ?_, variant_append_ne_nil _ _⟩
    exact .behindVariant (by decide) ((reads_argument destination).always.bind
      ((readsIf_arguments And.left).map _))
  | publish modules dependencies =>
    cases h
    rw [List.append_assoc]
    refine ⟨_, rfl, ?_, variant_append_ne_nil _ _⟩
    exact .behindVariant (by decide) ((readsIf_modules (fun hc => hc.1.1) fun hc => hc.1.2.1).bind
      ((readsIf_addresses fun hc => hc.1.2.2).map _))
  | makeMoveVec elementType elements =>
    obtain ⟨type, hparsed, rfl⟩ := command_makeMoveVec_eq_ok.mp h
    cases Except.optionMapM_eq_ok.mp hparsed with
    | none =>
      refine ⟨_, rfl, ?_, variant_append_ne_nil _ _⟩
      exact .behindVariant (by decide) ((reads_none _).always.bind ((readsIf_arguments And.left).map _))
    | @some text t ht =>
      obtain ⟨hread, hnormal⟩ := readsIf_type ht
      have hoption : (option Reader.typeTag).ReadsIf
          ((Command.makeMoveVec (some text) elements).Short ∧
            (Command.makeMoveVec (some text) elements).TypesReadable)
          (Wire.option Wire.typeTag (some t)) (some t) := by
        refine readsIf_option ?_
        rintro _ ⟨⟩
        exact hread.mono fun hc => hc.2 text (by simp [Command.typeTexts])
      refine ⟨.makeMoveVec (some t.text) elements, ?_, ?_, variant_append_ne_nil _ _⟩
      · exact Except.bind_eq_ok.mpr ⟨some t.text, Except.optionMapM_eq_ok.mpr (.some hnormal), rfl⟩
      · exact .behindVariant (by decide) (hoption.bind ((readsIf_arguments And.left).map _))
  | upgrade modules dependencies package ticket =>
    cases h
    simp only [List.append_assoc]
    refine ⟨_, rfl, ?_, variant_append_ne_nil _ _⟩
    exact .behindVariant (by decide) ((readsIf_modules (fun hc => hc.1.1) fun hc => hc.1.2.1).bind
      ((readsIf_addresses fun hc => hc.1.2.2).bind ((reads_address package).always.bind
        ((reads_argument ticket).always.map _))))
  | intent i => cases h

/-! ### Whole transactions -/

theorem reads_expiration (e : Expiration) :
    Reader.expiration.Reads (Wire.expirationTag e) e := by
  cases e with
  | none => exact Reads.variantAlone (by decide) (Reads.pure _)
  | epoch number => exact Reads.behindVariant (by decide) ((reads_u64 number).map _)

theorem readsIf_inputs {inputs : List Input} {pieces : List Bytes}
    (h : List.Forall₂ (fun entry piece => Wire.input entry.2 entry.1 = .ok piece) inputs.zipIdx pieces)
    (hlen : Q → inputs.length < 2 ^ 32) (hshort : Q → ∀ i ∈ inputs, i.Short) :
    (seq Reader.input).ReadsIf Q (Wire.length pieces.length ++ pieces.flatten) inputs := by
  have hinputs : List.Forall₂ (fun i bs => Reader.input.ReadsIf Q bs i ∧ bs ≠ []) inputs pieces := by
    refine List.forall₂_zipIdx_iff.mp (h.imp_of_mem fun entry piece hentry hpiece => ?_)
    obtain ⟨hread, hne⟩ := readsIf_input hpiece
    exact ⟨hread.mono fun hQ => hshort hQ _ (List.fst_mem_of_mem_zipIdx hentry), hne⟩
  exact readsIf_pieces (fun hQ => hinputs.length_eq ▸ hlen hQ) hinputs.flip

theorem readsIf_kind {tx : Transaction} {bs : Bytes} (h : tx.encodeKind = .ok bs) :
    ∃ commands, tx.commands.mapM Command.normalizeTypes = .ok commands ∧
      Reader.kind.ReadsIf tx.KindReadable bs (tx.inputs, commands) := by
  obtain ⟨inputPieces, commandPieces, hinputs, hcommands, rfl⟩ :=
    Transaction.encodeKind_eq_ok.mp h
  obtain ⟨commands, hnormal, hcommands⟩ := hcommands.exists_middle
    (T := fun piece c' => Reader.command.ReadsIf tx.KindReadable piece c' ∧ piece ≠ [])
    fun c piece hc hpiece => by
      obtain ⟨c', hnormal, hread, hne⟩ := readsIf_command hpiece
      exact ⟨c', hnormal, hread.mono fun h => ⟨h.commands c hc, h.types c hc⟩, hne⟩
  refine ⟨commands, Except.mapM_eq_ok.mpr hnormal, ?_⟩
  refine .behindVariant (by decide)
    ((readsIf_inputs hinputs (fun h => h.inputs_length) fun h => h.inputs).bind
      ((readsIf_pieces (fun h => ?_) hcommands).map _))
  rw [hcommands.length_eq, ← hnormal.length_eq]
  exact h.commands_length

theorem readsIf_transaction {tx : Transaction} {bs : Bytes} (h : tx.encode = .ok bs) :
    ∃ tx', tx.normalizeTypes = .ok tx' ∧ Reader.transaction.ReadsIf tx.Readable bs tx' := by
  obtain ⟨sender, owner, payment, price, budget, kind, hsender, hgas, hkind, rfl⟩ :=
    Transaction.encode_eq_ok.mp h
  obtain ⟨commands, hnormal, hkind⟩ := readsIf_kind hkind
  have hpayment : (seq Reader.objectRef).ReadsIf tx.Readable (Wire.seq Wire.objectRef payment) payment :=
    readsIf_seq (fun h => h.payment payment (by rw [hgas])) objectRef_ne_nil
      fun r _ => (reads_objectRef r).always
  refine ⟨_, Except.bind_eq_ok.mpr ⟨commands, hnormal, rfl⟩, ?_⟩
  rw [hsender, hgas]
  exact .behindVariant (by decide) ((hkind.mono fun h => h.toKindReadable).bind
    ((reads_address sender).always.bind (hpayment.bind ((reads_address owner).always.bind
      ((reads_u64 price).always.bind ((reads_u64 budget).always.bind
        ((reads_expiration tx.expiration).always.map _)))))))

end Reader

end Wire

/-! ### Transactions of any size -/

namespace Transaction

theorem normalizeTypes_of_decode {tx tx' : Transaction} {bytes : List UInt8}
    (h : tx.encode = .ok bytes) (hdecode : decode bytes = .ok tx') : tx.normalizeTypes = .ok tx' := by
  obtain ⟨_, hnormal, hreads⟩ := Wire.Reader.readsIf_transaction h
  rw [hreads.takes.decode hdecode]
  exact hnormal

theorem normalizeTypes_eq_ok {tx tx' : Transaction} (h : tx.normalizeTypes = .ok tx') :
    ∃ commands, tx' = { tx with commands } := by
  obtain ⟨commands, -, h⟩ := Except.bind_eq_ok.mp h
  cases h
  exact ⟨commands, rfl⟩

end Transaction

/-! ### Main statement -/

theorem Command.normalizeTypes_of_canonical {c : Command}
    (h : ∀ text ∈ c.typeTexts, TypeTag.normalize text = .ok text) : c.normalizeTypes = .ok c := by
  cases c with
  | moveCall call =>
    have htexts : call.typeArguments.mapM TypeTag.normalize = .ok call.typeArguments := by
      rw [Except.mapM_eq_ok, List.forall₂_same]
      exact h
    exact Except.bind_eq_ok.mpr ⟨_, htexts, rfl⟩
  | makeMoveVec elementType elements =>
    have htext : elementType.mapM TypeTag.normalize = .ok elementType := by
      rw [Except.optionMapM_eq_ok]
      cases elementType with
      | none => exact .none
      | some text => exact .some (h text (by simp [typeTexts]))
    exact Except.bind_eq_ok.mpr ⟨_, htext, rfl⟩
  | _ => rfl

namespace Transaction

theorem normalizeTypes_of_canonical {tx : Transaction} (h : tx.CanonicalTypes) :
    tx.normalizeTypes = .ok tx := by
  have hcommands : tx.commands.mapM Command.normalizeTypes = .ok tx.commands := by
    rw [Except.mapM_eq_ok, List.forall₂_same]
    exact fun c hc => Command.normalizeTypes_of_canonical (h c hc)
  exact Except.bind_eq_ok.mpr ⟨_, hcommands, rfl⟩

/-- **Decoding undoes encoding**, of whole transactions and of kinds alone: within the bounds of the
wire the bytes give back the transaction with its types in canonical form, which is the transaction
itself when they were in that form before. -/
theorem decode_encode (tx : Transaction) :
    (tx.Readable → ∀ bytes, tx.encode = .ok bytes →
      ∃ tx', tx.normalizeTypes = .ok tx' ∧ (tx.CanonicalTypes → tx' = tx) ∧
        decode bytes = .ok tx') ∧
    (tx.KindReadable → ∀ bytes, tx.encodeKind = .ok bytes →
      ∃ tx', tx.normalizeTypes = .ok tx' ∧ (tx.CanonicalTypes → tx' = tx) ∧
        decodeKind bytes = .ok (tx'.inputs, tx'.commands)) := by
  have hself : ∀ {tx'}, tx.normalizeTypes = .ok tx' → tx.CanonicalTypes → tx' = tx := by
    intro tx' hnormal hcanonical
    rw [normalizeTypes_of_canonical hcanonical] at hnormal
    exact (Except.ok.inj hnormal).symm
  constructor
  · intro hread bytes h
    obtain ⟨tx', hnormal, hreads⟩ := Wire.Reader.readsIf_transaction h
    exact ⟨tx', hnormal, hself hnormal, (hreads.reads hread).decode⟩
  · intro hread bytes h
    obtain ⟨commands, hcommands, hreads⟩ := Wire.Reader.readsIf_kind h
    have hnormal : tx.normalizeTypes = .ok { tx with commands } :=
      Except.bind_eq_ok.mpr ⟨commands, hcommands, rfl⟩
    exact ⟨_, hnormal, hself hnormal, (hreads.reads hread).decode⟩

def vectorOf (type : String) : Transaction where
  sender := some (.ofUInt64 1)
  gas := ⟨some [], some (.ofUInt64 1), some 1000, some 50000⟩
  inputs := [.pure [1, 0], .object (.shared (.ofUInt64 6) 1 false)]
  commands := [.splitCoins .feeObject [.input 0], .makeMoveVec (some type) [.nestedResult 0 0]]

/-- A type with blanks in it and a short address is read back without blanks and in full. -/
theorem decode_encode_vectorOf :
    ∃ bytes kind,
      let tx := vectorOf "vector< 0x2::coin::Coin<u8> >"
      let tx' := vectorOf (TypeTag.vector (.struct (.ofUInt64 2) "coin" "Coin" [.u8])).text
      tx.Readable ∧ tx.encode = .ok bytes ∧ decode bytes = .ok tx' ∧
        tx.encodeKind = .ok kind ∧ decodeKind kind = .ok (tx'.inputs, tx'.commands) := by
  have hparse : TypeTag.parse "vector< 0x2::coin::Coin<u8> >" =
      .ok (.vector (.struct (.ofUInt64 2) "coin" "Coin" [.u8])) := by decide +kernel
  have hnormal : (vectorOf "vector< 0x2::coin::Coin<u8> >").normalizeTypes =
      .ok (vectorOf (TypeTag.vector (.struct (.ofUInt64 2) "coin" "Coin" [.u8])).text) := rfl
  have hshort : (TypeTag.vector (.struct (.ofUInt64 2) "coin" "Coin" [.u8])).Short ∧
      (TypeTag.vector (.struct (.ofUInt64 2) "coin" "Coin" [.u8])).height ≤
        Wire.Reader.typeDepth := by
    refine ⟨⟨⟨?_, ?_, ?_⟩, trivial, trivial⟩, ?_⟩ <;> decide +kernel
  have hread : (vectorOf "vector< 0x2::coin::Coin<u8> >").Readable := {
    inputs_length := by decide
    inputs := by simp [vectorOf, Input.Short]
    commands_length := by decide
    commands := by simp [vectorOf, Command.Short]
    types := by simp [vectorOf, Command.TypesReadable, Command.typeTexts, hparse, hshort]
    payment := by simp [vectorOf] }
  have hparsed : Wire.parsedType "vector< 0x2::coin::Coin<u8> >" = _ :=
    Wire.parsedType_eq_ok.mpr ⟨by simp, hparse⟩
  obtain ⟨kind, hkind⟩ : ∃ kind, (vectorOf "vector< 0x2::coin::Coin<u8> >").encodeKind = .ok kind :=
    ⟨_, encodeKind_eq_ok.mpr ⟨_, _, .cons rfl (.cons rfl .nil), .cons rfl (.cons
      (Wire.command_makeMoveVec_eq_ok.mpr ⟨_, Except.optionMapM_eq_ok.mpr (.some hparsed), rfl⟩)
      .nil), rfl⟩⟩
  obtain ⟨bytes, hbytes⟩ : ∃ bytes, (vectorOf "vector< 0x2::coin::Coin<u8> >").encode = .ok bytes :=
    ⟨_, encode_eq_ok.mpr ⟨_, _, _, _, _, kind, rfl, rfl, hkind, rfl⟩⟩
  obtain ⟨whole, alone⟩ := decode_encode (vectorOf "vector< 0x2::coin::Coin<u8> >")
  obtain ⟨_, hwhole, -, hdecode⟩ := whole hread bytes hbytes
  obtain ⟨_, halone, -, hdecodeKind⟩ := alone hread.toKindReadable kind hkind
  cases hnormal.symm.trans hwhole
  cases hnormal.symm.trans halone
  exact ⟨bytes, kind, hread, hbytes, hdecode, hkind, hdecodeKind⟩

end Transaction

end ObjectLedger
