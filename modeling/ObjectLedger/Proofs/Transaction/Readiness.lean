import ObjectLedger.Proofs.Transaction.Encoding
import ObjectLedger.Transaction.Validity

/-!
# Complete transactions and the encoder

Two judges say whether a transaction is ready for the wire: the check that nothing is open, and the
encoder. They agree on inputs, packages and intents. The encoder reads the types of calls and vectors as
well, and a type that cannot be read is the only thing that it still refuses in a complete transaction.
-/

namespace ObjectLedger

/-- Every type of a command can be read. -/
def Command.TypesParse (c : Command) : Prop :=
  ∀ text ∈ c.typeTexts, ∃ t, TypeTag.parse text = .ok t

/-- A fault that one of the types of a command is refused with. -/
def Command.TypeFault (c : Command) (fault : ParseError) : Prop :=
  ∃ text ∈ c.typeTexts, TypeTag.parse text = .error fault

/-! ### Nothing is open -/

theorem Input.firstOpen?_eq_none {inputs : List Input} {n : Nat} :
    firstOpen? n inputs = none ↔ ∀ i ∈ inputs, i.isResolved = true := by
  induction inputs generalizing n with
  | nil => simp [firstOpen?]
  | cons i rest ih =>
    cases i with
    | unresolved u => simp [firstOpen?, isResolved]
    | pure bytes => simp [firstOpen?, isResolved, ih]
    | object arg => simp [firstOpen?, isResolved, ih]

theorem Transaction.validateResolved_eq_ok {tx : Transaction} :
    tx.validateResolved = .ok () ↔ tx.validate = .ok () ∧ (∀ i ∈ tx.inputs, i.isResolved = true) ∧
      ∀ c ∈ tx.commands, c.openPart? = none := by
  rw [← Input.firstOpen?_eq_none (n := 0), ← List.findSome?_eq_none_iff, validateResolved]
  rcases tx.validate with e | ⟨⟨⟩⟩
  · simp
  · cases Input.firstOpen? 0 tx.inputs with
    | some e => simp
    | none => cases tx.commands.findSome? Command.openPart? <;> simp

theorem Command.openPart?_moveCall {call : MoveCall} :
    (moveCall call).openPart? = none ↔
      (∃ a, call.package = .address a) ∧ ∀ text ∈ call.typeArguments, text.contains '@' = false := by
  cases hpackage : call.package with
  | named name => simp [openPart?, hpackage]
  | address a => simp [openPart?, hpackage]

theorem Command.openPart?_makeMoveVec {elementType : Option String} {elements : List Argument} :
    (makeMoveVec elementType elements).openPart? = none ↔
      ∀ text ∈ elementType.toList, text.contains '@' = false := by
  cases elementType <;> simp [openPart?]

/-! ### What the encoder accepts -/

namespace Wire

theorem exists_input_iff {n : Nat} {i : Input} :
    (∃ bs, input n i = .ok bs) ↔ i.isResolved = true := by
  cases i <;> simp [input, Input.isResolved]

theorem exists_parsedType_iff {text : String} :
    (∃ t, parsedType text = .ok t) ↔ text.contains '@' = false ∧ ∃ t, TypeTag.parse text = .ok t := by
  simp only [parsedType_eq_ok, exists_and_left]

theorem exists_parsedTypes_iff {texts : List String} :
    (∃ types, texts.mapM parsedType = .ok types) ↔
      (∀ text ∈ texts, text.contains '@' = false) ∧
        ∀ text ∈ texts, ∃ t, TypeTag.parse text = .ok t := by
  rw [Except.exists_mapM_eq_ok]
  simp only [exists_parsedType_iff, forall_and]

theorem parsedType_eq_error {text : String} {e : EncodeError} (hname : text.contains '@' = false)
    (h : parsedType text = .error e) :
    ∃ fault, TypeTag.parse text = .error fault ∧ e = .invalidType fault := by
  rw [parsedType, hname, if_neg Bool.false_ne_true] at h
  cases hparse : TypeTag.parse text with
  | ok t =>
    rw [hparse] at h
    cases h
  | error fault =>
    rw [hparse] at h
    cases h
    exact ⟨fault, rfl, rfl⟩

theorem optionMapM_parsedType (elementType : Option String) :
    (elementType.mapM parsedType).map Option.toList = elementType.toList.mapM parsedType := by
  cases elementType with
  | none => rfl
  | some text =>
    rw [Option.toList_some, List.mapM_cons, Option.mapM_some]
    cases parsedType text <;> rfl

theorem exists_command_iff {c : Command} :
    (∃ bs, command c = .ok bs) ↔ c.openPart? = none ∧ c.TypesParse := by
  cases c with
  | moveCall call =>
    have hcall : (∃ bs, command (.moveCall call) = .ok bs) ↔
        (∃ a, call.package = .address a) ∧
          ∃ types, call.typeArguments.mapM parsedType = .ok types := by
      simp only [command_moveCall_eq_ok]
      constructor
      · rintro ⟨_, a, types, ha, htypes, -⟩
        exact ⟨⟨a, ha⟩, types, htypes⟩
      · rintro ⟨⟨a, ha⟩, types, htypes⟩
        exact ⟨_, a, types, ha, htypes, rfl⟩
    rw [hcall, exists_parsedTypes_iff, Command.openPart?_moveCall, and_assoc]
    rfl
  | makeMoveVec elementType elements =>
    have hvector : (∃ bs, command (.makeMoveVec elementType elements) = .ok bs) ↔
        ∃ types, elementType.toList.mapM parsedType = .ok types := by
      simp only [command_makeMoveVec_eq_ok, ← optionMapM_parsedType, Except.map_eq_ok]
      constructor
      · rintro ⟨_, type, htype, -⟩
        exact ⟨_, type, htype, rfl⟩
      · rintro ⟨_, type, htype, -⟩
        exact ⟨_, type, htype, rfl⟩
    rw [hvector, exists_parsedTypes_iff, Command.openPart?_makeMoveVec]
    rfl
  | intent i => simp [command, Command.openPart?]
  | _ => simp [command, Command.openPart?, Command.TypesParse, Command.typeTexts, pure, Except.pure]

theorem command_eq_error {c : Command} {e : EncodeError} (hopen : c.openPart? = none)
    (h : command c = .error e) : ∃ fault, c.TypeFault fault ∧ e = .invalidType fault := by
  -- Calls and vectors come down to the list of their types, of which one is refused.
  have htypes : ∀ texts : List String, (∀ text ∈ texts, text.contains '@' = false) →
      texts.mapM parsedType = .error e →
      ∃ fault, (∃ text ∈ texts, TypeTag.parse text = .error fault) ∧ e = .invalidType fault := by
    intro texts hnames herror
    obtain ⟨text, hmem, htext⟩ := Except.exists_of_mapM_eq_error herror
    obtain ⟨fault, hfault, he⟩ := parsedType_eq_error (hnames text hmem) htext
    exact ⟨fault, ⟨text, hmem, hfault⟩, he⟩
  cases c with
  | moveCall call =>
    obtain ⟨⟨a, ha⟩, hnames⟩ := Command.openPart?_moveCall.mp hopen
    refine htypes call.typeArguments hnames ?_
    cases hmap : call.typeArguments.mapM parsedType with
    | error e' =>
      rw [command, ha, hmap] at h
      exact congrArg Except.error (Except.error.inj h)
    | ok types =>
      rw [command, ha, hmap] at h
      cases h
  | makeMoveVec elementType elements =>
    have hnames := Command.openPart?_makeMoveVec.mp hopen
    refine htypes elementType.toList hnames ?_
    rw [← optionMapM_parsedType]
    cases hmap : elementType.mapM parsedType with
    | error e' =>
      rw [command, hmap] at h
      exact congrArg Except.error (Except.error.inj h)
    | ok type =>
      rw [command, hmap] at h
      cases h
  | intent i =>
    rw [Command.openPart?] at hopen
    cases hopen
  | _ =>
    rw [command] at h
    cases h

end Wire

namespace Transaction

open Wire

/-- The encoder accepts inputs and commands when nothing is open and every type can be read. -/
theorem exists_encodeKind_iff {tx : Transaction} :
    (∃ bytes, tx.encodeKind = .ok bytes) ↔
      (∀ i ∈ tx.inputs, i.isResolved = true) ∧
        ∀ c ∈ tx.commands, c.openPart? = none ∧ c.TypesParse := by
  have hinputs : (∃ pieces, tx.inputs.zipIdx.mapM (fun entry => input entry.2 entry.1) = .ok pieces) ↔
      ∀ i ∈ tx.inputs, i.isResolved = true := by
    rw [Except.exists_mapM_eq_ok]
    simp only [exists_input_iff]
    constructor
    · intro h i hi
      obtain ⟨n, hn⟩ := List.mem_iff_getElem?.mp hi
      exact h (i, n) (List.mk_mem_zipIdx_iff_getElem?.mpr hn)
    · intro h entry hentry
      exact h entry.1 (List.fst_mem_of_mem_zipIdx hentry)
  have hcommands : (∃ pieces, tx.commands.mapM command = .ok pieces) ↔
      ∀ c ∈ tx.commands, c.openPart? = none ∧ c.TypesParse := by
    rw [Except.exists_mapM_eq_ok]
    simp only [exists_command_iff]
  rw [← hinputs, ← hcommands]
  simp only [encodeKind, Except.bind_eq_ok, Except.pure_eq_ok]
  constructor
  · rintro ⟨_, inputs, hinputs, commands, hcommands, -⟩
    exact ⟨⟨inputs, hinputs⟩, commands, hcommands⟩
  · rintro ⟨⟨inputs, hinputs⟩, commands, hcommands⟩
    exact ⟨_, inputs, hinputs, commands, hcommands, rfl⟩

theorem encodeKind_eq_error {tx : Transaction} {e : EncodeError} (hready : tx.validateResolved = .ok ())
    (h : tx.encodeKind = .error e) :
    ∃ fault, (∃ c ∈ tx.commands, c.TypeFault fault) ∧ e = .invalidType fault := by
  obtain ⟨-, hinputs, hcommands⟩ := validateResolved_eq_ok.mp hready
  have hpieces : ∃ pieces, tx.inputs.zipIdx.mapM (fun entry => input entry.2 entry.1) = .ok pieces :=
    Except.exists_mapM_eq_ok.mpr fun entry hentry =>
      exists_input_iff.mpr (hinputs entry.1 (List.fst_mem_of_mem_zipIdx hentry))
  obtain ⟨pieces, hpieces⟩ := hpieces
  rw [encodeKind, hpieces] at h
  cases hmap : tx.commands.mapM command with
  | ok commands =>
    rw [hmap] at h
    cases h
  | error e' =>
    rw [hmap] at h
    cases h
    obtain ⟨c, hc, herror⟩ := Except.exists_of_mapM_eq_error hmap
    obtain ⟨fault, hfault, he⟩ := command_eq_error (hcommands c hc) herror
    exact ⟨fault, ⟨c, hc, hfault⟩, he⟩

theorem exists_encodeKind_iff_of_resolved {tx : Transaction} (hready : tx.validateResolved = .ok ()) :
    (∃ bytes, tx.encodeKind = .ok bytes) ↔ ∀ c ∈ tx.commands, c.TypesParse := by
  obtain ⟨-, hinputs, hcommands⟩ := validateResolved_eq_ok.mp hready
  rw [exists_encodeKind_iff]
  constructor
  · rintro ⟨-, h⟩ c hc
    exact (h c hc).2
  · intro h
    exact ⟨hinputs, fun c hc => ⟨hcommands c hc, h c hc⟩⟩

theorem validateResolved_of_encodeKind {tx : Transaction} (hvalid : tx.validate = .ok ())
    (h : ∃ bytes, tx.encodeKind = .ok bytes) : tx.validateResolved = .ok () := by
  obtain ⟨hinputs, hcommands⟩ := exists_encodeKind_iff.mp h
  exact validateResolved_eq_ok.mpr ⟨hvalid, hinputs, fun c hc => (hcommands c hc).1⟩

theorem encode_of_set {tx : Transaction} {sender owner : Address} {payment : List ObjectRef}
    {price budget : UInt64} (hsender : tx.sender = some sender)
    (hgas : tx.gas = ⟨some payment, some owner, some price, some budget⟩) :
    tx.encode = tx.encodeKind.map fun kind =>
      variant 0 ++ kind ++ address sender ++ seq objectRef payment ++ address owner ++ u64 price ++
        u64 budget ++ expirationTag tx.expiration := by
  rw [encode, hsender, hgas]
  cases tx.encodeKind <;> rfl

end Transaction

end ObjectLedger
