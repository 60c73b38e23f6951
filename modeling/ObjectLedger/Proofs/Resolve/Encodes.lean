import ObjectLedger.Proofs.Resolve.Pipeline
import ObjectLedger.Proofs.Transaction.Readiness

/-!
# A run prepares a transaction for the wire

Nothing is assumed of the handlers, of the lookup or of what earlier runs learnt: the check at the end of
a run decides about inputs, packages and intents, and the stage for gas about the rest.
-/

namespace ObjectLedger

namespace Pipeline

section Encodes

variable {σ : Type} {o : BuildOptions σ} {memory : NameMemory} {config : ResolverConfig}
  {registry : IntentRegistry σ} {tx tx' : Transaction} {w : World σ}

theorem set_of_run (hkind : o.kindOnly = false)
    (h : ((standardWith memory config registry).run o tx w).1 = .ok tx') :
    ∃ sender owner payment price budget, tx'.sender = some sender ∧
      tx'.gas = ⟨some payment, some owner, some price, some budget⟩ := by
  obtain ⟨hran⟩ := ran_of_run h
  obtain ⟨sender, budget, price, payment, hsender, -, -, htx⟩ := resolveGas_fills hkind hran.gas
  rw [htx]
  exact ⟨sender, hran.completed.gas.owner.getD sender, payment, price, budget, hsender, rfl⟩

theorem encoded_of_run (h : ((standardWith memory config registry).run o tx w).1 = .ok tx') :
    ∃ around : List UInt8 → List UInt8,
      encoded o tx' = (tx'.encodeKind.map around).mapError .encode := by
  cases hkind : o.kindOnly with
  | true =>
    refine ⟨id, ?_⟩
    rw [encoded, hkind, if_pos rfl]
    cases tx'.encodeKind <;> rfl
  | false =>
    obtain ⟨sender, owner, payment, price, budget, hsender, hgas⟩ := set_of_run hkind h
    rw [encoded, hkind, if_neg Bool.false_ne_true, Transaction.encode_of_set hsender hgas]
    exact ⟨_, rfl⟩

end Encodes

/-- **What is resolved can be encoded, and what can be encoded is resolved.** When a run succeeds, the
transaction that it gives is encoded just when every type of its commands can be read; otherwise the
refusal is that of one of those types, and never about a field, an input, a package or an intent. The
other way round, a valid transaction whose inputs and commands are encoded passes the check that nothing
is open. -/
theorem encodes_of_run :
    (∀ {σ : Type} {memory : NameMemory} {config : ResolverConfig} {registry : IntentRegistry σ}
        {o : BuildOptions σ} {tx tx' : Transaction} {w : World σ},
      ((standardWith memory config registry).run o tx w).1 = .ok tx' →
        ((∃ bytes, encoded o tx' = .ok bytes) ↔ ∀ c ∈ tx'.commands, c.TypesParse) ∧
        ∀ e, encoded o tx' = .error e →
          ∃ fault, e = .encode (.invalidType fault) ∧ ∃ c ∈ tx'.commands, c.TypeFault fault) ∧
      ∀ tx : Transaction, tx.validate = .ok () → (∃ bytes, tx.encodeKind = .ok bytes) →
        tx.validateResolved = .ok () := by
  refine ⟨fun {_ _ _ _ o _ tx' _} h => ?_, fun tx => Transaction.validateResolved_of_encodeKind⟩
  obtain ⟨around, hencoded⟩ := encoded_of_run h
  obtain ⟨_, -, -, hready⟩ := run_eq_ok h
  constructor
  · rw [← Transaction.exists_encodeKind_iff_of_resolved hready, hencoded]
    cases tx'.encodeKind <;> simp [Except.map, Except.mapError]
  · intro e he
    rw [hencoded] at he
    cases hkind : tx'.encodeKind with
    | ok bytes =>
      rw [hkind] at he
      cases he
    | error refusal =>
      rw [hkind] at he
      obtain ⟨fault, hfault, rfl⟩ := Transaction.encodeKind_eq_error hready hkind
      exact ⟨fault, (Except.error.inj he).symm, hfault⟩

/-- A call with a type, paid by a coin that is named; the owner of the gas is left open. -/
def typed (owner : Option Address) (type : String) : Transaction where
  sender := some (.ofUInt64 1)
  gas := ⟨some [⟨.ofUInt64 9, 1, ⟨.zero⟩⟩], owner, some 1, some 100⟩
  commands := [.moveCall ⟨.address (.ofUInt64 2), "coin", "zero", [type], []⟩]

theorem validateResolved_typed {owner : Option Address} {type : String}
    (hname : '@' ∉ type.toList) : (typed owner type).validateResolved = .ok () := by
  refine Transaction.validateResolved_eq_ok.mpr ⟨by rfl, nofun, ?_⟩
  intro c hc
  obtain rfl := List.mem_singleton.mp hc
  refine Command.openPart?_moveCall.mpr ⟨⟨_, rfl⟩, ?_⟩
  intro text htext
  obtain rfl := List.mem_singleton.mp htext
  rw [String.contains_char_eq, decide_eq_false hname]

theorem run_typed (type : String) (hnames : (typed none type).names = [])
    (hname : '@' ∉ type.toList) :
    ((standardWith [] {} (.standard : IntentRegistry Unit)).run {} (typed none type) ⟨(), {}, 0⟩).1 =
      .ok (typed (some (.ofUInt64 1)) type) := by
  have hstages : resolveNames 50 {} [] (typed none type) =
      fun w : World Unit => (.ok (typed none type), [], w) := by
    funext w
    rw [resolveNames, hnames]
    rfl
  rw [run_fst, standardWith, runStages, Stage.run, hstages]
  exact congrArg (Except.map fun _ => _) (validateResolved_typed hname)

/-- One run gives a transaction that is encoded, and one a transaction that is not, for the last name of
its type is missing. -/
theorem encodes_of_run_typed :
    ((standardWith [] {} (.standard : IntentRegistry Unit)).run {} (typed none "u64") ⟨(), {}, 0⟩).1 =
        .ok (typed (some (.ofUInt64 1)) "u64") ∧
      (∃ bytes, encoded ({} : BuildOptions Unit) (typed (some (.ofUInt64 1)) "u64") = .ok bytes) ∧
      ((standardWith [] {} (.standard : IntentRegistry Unit)).run {} (typed none "0x2::sui")
        ⟨(), {}, 0⟩).1 = .ok (typed (some (.ofUInt64 1)) "0x2::sui") ∧
      (¬∃ bytes, encoded ({} : BuildOptions Unit) (typed (some (.ofUInt64 1)) "0x2::sui") =
        .ok bytes) ∧
      (typed none "u64").validate = .ok () ∧ (∃ bytes, (typed none "u64").encodeKind = .ok bytes) ∧
      (typed none "u64").validateResolved = .ok () := by
  have hrun := run_typed "u64" (by decide +kernel) (by decide +kernel)
  have hrun' := run_typed "0x2::sui" (by decide +kernel) (by decide +kernel)
  have hparse : ∃ t, TypeTag.parse "u64" = .ok t := ⟨.u64, by decide +kernel⟩
  have hrefused : TypeTag.parse "0x2::sui" = .error (.invalidType "0x2::sui" .malformedPath 8) := by
    decide +kernel
  have htypes : ∀ owner, ∀ c ∈ (typed owner "u64").commands, c.TypesParse := by
    intro owner c hc text htext
    obtain rfl := List.mem_singleton.mp hc
    obtain rfl := List.mem_singleton.mp htext
    exact hparse
  have hvalid : (typed none "u64").validate = .ok () := by decide +kernel
  have hkind : ∃ bytes, (typed none "u64").encodeKind = .ok bytes :=
    (Transaction.exists_encodeKind_iff_of_resolved
      (validateResolved_typed (by decide +kernel))).mpr (htypes none)
  refine ⟨hrun, (encodes_of_run.1 hrun).1.mpr (htypes _), hrun', ?_, hvalid, hkind,
    encodes_of_run.2 _ hvalid hkind⟩
  intro h
  obtain ⟨t, ht⟩ := (encodes_of_run.1 hrun').1.mp h _ List.mem_cons_self _ List.mem_cons_self
  rw [hrefused] at ht
  cases ht

end Pipeline

end ObjectLedger
