import ObjectLedger.Proofs.Resolve.Encodes

/-!
# Builds that fail

A build commits what its stages made of the transaction before it encodes it. A fault of a stage, or of
the check behind the stages, leaves the transaction as it was; a fault of the encoder does not, and the
encoder refuses what the check accepts in two cases: a type that cannot be read, and, of a whole
transaction, sender or gas that no stage has set.
-/

namespace ObjectLedger

namespace Transaction

def firstUnset? (tx : Transaction) : Option String :=
  if tx.sender.isNone then some "sender"
  else if tx.gas.owner.isNone then some "gas owner"
  else if tx.gas.payment.isNone then some "gas payment"
  else if tx.gas.price.isNone then some "gas price"
  else if tx.gas.budget.isNone then some "gas budget"
  else none

theorem firstUnset?_eq_none {tx : Transaction} :
    tx.firstUnset? = none ↔ ∃ sender owner payment price budget, tx.sender = some sender ∧
      tx.gas = ⟨some payment, some owner, some price, some budget⟩ := by
  obtain ⟨sender, _, ⟨payment, owner, price, budget⟩, _, _⟩ := tx
  cases sender <;> cases owner <;> cases payment <;> cases price <;> cases budget <;>
    simp [firstUnset?]

theorem encode_of_firstUnset {tx : Transaction} {field : String} (h : tx.firstUnset? = some field) :
    tx.encode = .error (.missingField field) := by
  obtain ⟨sender, expiration, ⟨payment, owner, price, budget⟩, inputs, commands⟩ := tx
  cases sender with
  | none => exact Option.some.inj h ▸ rfl
  | some sender =>
    cases owner with
    | none => exact Option.some.inj h ▸ rfl
    | some owner =>
      cases payment with
      | none => exact Option.some.inj h ▸ rfl
      | some payment =>
        cases price with
        | none => exact Option.some.inj h ▸ rfl
        | some price =>
          cases budget with
          | none => exact Option.some.inj h ▸ rfl
          | some budget => cases h

end Transaction

namespace Pipeline

variable {σ : Type}

/-- What the encoder refuses in a transaction that is complete. -/
inductive Refused (o : BuildOptions σ) (tx : Transaction) : EncodeError → Prop
  | unset {field : String} (hkind : o.kindOnly = false) (hfield : tx.firstUnset? = some field) :
      Refused o tx (.missingField field)
  | type {fault : ParseError} {c : Command} (hc : c ∈ tx.commands) (hfault : c.TypeFault fault) :
      Refused o tx (.invalidType fault)

variable {o : BuildOptions σ} {tx : Transaction} {e : BuildError}

theorem refused_of_encodeKind {refusal : EncodeError} (hready : tx.validateResolved = .ok ())
    (h : tx.encodeKind = .error refusal) : Refused o tx refusal := by
  obtain ⟨fault, ⟨c, hc, hfault⟩, rfl⟩ := Transaction.encodeKind_eq_error hready h
  exact .type hc hfault

theorem refused_of_encode {refusal : EncodeError} (hkind : o.kindOnly = false)
    (hready : tx.validateResolved = .ok ()) (h : tx.encode = .error refusal) :
    Refused o tx refusal := by
  cases hfield : tx.firstUnset? with
  | some field =>
    rw [Transaction.encode_of_firstUnset hfield] at h
    cases h
    exact .unset hkind hfield
  | none =>
    obtain ⟨_, _, _, _, _, hsender, hgas⟩ := Transaction.firstUnset?_eq_none.mp hfield
    rw [Transaction.encode_of_set hsender hgas] at h
    exact refused_of_encodeKind hready (Except.map_eq_error.mp h)

theorem refused_of_encoded (hready : tx.validateResolved = .ok ()) (h : encoded o tx = .error e) :
    ∃ refusal, e = .encode refusal ∧ Refused o tx refusal := by
  obtain ⟨refusal, hrefusal, rfl⟩ := Except.mapError_eq_error.mp h
  refine ⟨refusal, rfl, ?_⟩
  cases hkind : o.kindOnly with
  | true =>
    rw [hkind, if_pos rfl] at hrefusal
    exact refused_of_encodeKind hready hrefusal
  | false =>
    rw [hkind, if_neg Bool.false_ne_true] at hrefusal
    exact refused_of_encode hkind hready hrefusal

/-! ### Main statement -/

/-- **A build that fails leaves the transaction as it was, unless it is the encoder that refuses it**, of
any stages and with any options. When stages and check fail, nothing is committed. When they do not, the
transaction is the one that they made, and it has a type that cannot be read, or, if it was to be encoded
as a whole, a field that is not set. -/
theorem transaction_of_build_eq_error (p : Pipeline σ) (o : BuildOptions σ) (tx : Transaction)
    (w : World σ) (e : BuildError) (h : (p.build o tx w).result = .error e) :
    ((p.run o tx w).1 = .error e ∧ (p.build o tx w).transaction = tx) ∨
      ∃ resolved refusal, (p.run o tx w).1 = .ok resolved ∧
        (p.build o tx w).transaction = resolved ∧ e = .encode refusal ∧ Refused o resolved refusal := by
  rcases hrun : p.run o tx w with ⟨fault | resolved, pipeline, world⟩
  · rw [build, hrun] at h ⊢
    cases h
    exact .inl ⟨rfl, rfl⟩
  · rw [build, hrun] at h ⊢
    have hok : (p.run o tx w).1 = .ok resolved := by rw [hrun]
    obtain ⟨_, -, -, hready⟩ := run_eq_ok hok
    obtain ⟨refusal, he, hrefused⟩ := refused_of_encoded hready h
    exact .inr ⟨resolved, refusal, rfl, rfl, he, hrefused⟩

/-- The build of a call with a type that lacks its last name. -/
def builtTyped : Built Unit :=
  build (standardWith [] {} .standard) {} (typed none "0x2::sui") ⟨(), {}, 0⟩

theorem builtTyped_result : builtTyped.result =
    .error (.encode (.invalidType (.invalidType "0x2::sui" .malformedPath 8))) ∧
      builtTyped.transaction = typed (some (.ofUInt64 1)) "0x2::sui" := by
  have hrun := run_typed "0x2::sui" (by decide +kernel) (by decide +kernel)
  have hname : "0x2::sui".contains '@' = false := by
    rw [String.contains_char_eq, decide_eq_false (by decide +kernel)]
  have hparse : TypeTag.parse "0x2::sui" = .error (.invalidType "0x2::sui" .malformedPath 8) := by
    decide +kernel
  have hparsed : Wire.parsedType "0x2::sui" =
      .error (.invalidType (.invalidType "0x2::sui" .malformedPath 8)) := by
    rw [Wire.parsedType, hname, if_neg Bool.false_ne_true, hparse]
    rfl
  have hencoded : encoded ({} : BuildOptions Unit) (typed (some (.ofUInt64 1)) "0x2::sui") =
      .error (.encode (.invalidType (.invalidType "0x2::sui" .malformedPath 8))) := by
    have hencode := Transaction.encode_of_set (show (typed (some (.ofUInt64 1)) "0x2::sui").sender =
      some (.ofUInt64 1) from rfl) rfl
    rw [encoded, if_neg Bool.false_ne_true, hencode]
    simp [Transaction.encodeKind, typed, Wire.command, hparsed, bind, Except.bind, pure, Except.pure,
      Except.map, Except.mapError]
  rcases heq : run (standardWith [] {} .standard) ({} : BuildOptions Unit) (typed none "0x2::sui")
    ⟨(), {}, 0⟩ with ⟨r, pipeline, world⟩
  rw [heq] at hrun
  subst hrun
  rw [builtTyped, build, heq]
  exact ⟨hencoded, rfl⟩

/-- A stage stops the build of an empty transaction, which has no sender; the encoder that of the call,
for its type. -/
theorem transaction_of_build_eq_error_typed :
    (build (standardWith [] {} (.standard : IntentRegistry Unit)) {} .empty ⟨(), {}, 0⟩).transaction =
        .empty ∧
      (∃ e, builtTyped.result = .error e) ∧
      ∃ refusal, builtTyped.transaction = typed (some (.ofUInt64 1)) "0x2::sui" ∧
        Refused ({} : BuildOptions Unit) (typed (some (.ofUInt64 1)) "0x2::sui") refusal := by
  have hrun := run_typed "0x2::sui" (by decide +kernel) (by decide +kernel)
  constructor
  · obtain ⟨-, htx⟩ | ⟨resolved, _, hresolved, -⟩ := transaction_of_build_eq_error
      (standardWith [] {} (.standard : IntentRegistry Unit)) {} .empty ⟨(), {}, 0⟩ .missingSender
      (by decide +kernel)
    · exact htx
    · have hnone : (run (standardWith [] {} (.standard : IntentRegistry Unit)) {} .empty
          ⟨(), {}, 0⟩).1 = .error .missingSender := by decide +kernel
      rw [hnone] at hresolved
      cases hresolved
  · refine ⟨⟨_, builtTyped_result.1⟩, ?_⟩
    obtain ⟨herror, -⟩ | ⟨resolved, refusal, hresolved, htx, -, hrefused⟩ :=
      transaction_of_build_eq_error _ _ _ _ _ builtTyped_result.1
    · rw [hrun] at herror
      cases herror
    · rw [hrun] at hresolved
      cases hresolved
      exact ⟨refusal, htx, hrefused⟩

/-- The build fails, and the owner of the gas is set. -/
theorem builtTyped_commits :
    (∃ e, builtTyped.result = .error e) ∧ builtTyped.transaction ≠ typed none "0x2::sui" := by
  obtain ⟨hresult, htx⟩ := builtTyped_result
  refine ⟨⟨_, hresult⟩, ?_⟩
  rw [htx]
  decide

end Pipeline

end ObjectLedger
