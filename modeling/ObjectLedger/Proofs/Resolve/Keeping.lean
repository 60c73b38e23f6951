import ObjectLedger.Proofs.Resolve.Pipeline

/-!
# What builds leave alone

A condition on the state of the others that each answer and each handler keeps is kept by a whole run,
also by one that fails. And when the handlers leave sender and gas alone, a run pays with what was set, or
else with coins that were looked up while the condition held.
-/

namespace ObjectLedger

variable {σ : Type} {holds : σ → Prop}

/-! ### Who pays -/

namespace Transaction

def SamePayer (tx tx' : Transaction) : Prop := tx'.sender = tx.sender ∧ tx'.gas = tx.gas

variable {tx tx' tx'' : Transaction}

theorem SamePayer.refl (tx : Transaction) : tx.SamePayer tx := ⟨rfl, rfl⟩

theorem SamePayer.trans (h : tx.SamePayer tx') (h' : tx'.SamePayer tx'') : tx.SamePayer tx'' :=
  ⟨h'.1.trans h.1, h'.2.trans h.2⟩

theorem samePayer_addInput {input : Input} {a : Argument} (h : tx.addInput input = .ok (a, tx')) :
    tx.SamePayer tx' := by
  obtain ⟨_, -, h⟩ := Except.map_eq_ok.mp h
  cases h
  exact ⟨rfl, rfl⟩

theorem samePayer_replaceCommand {index : Nat} {replacement : List Command} {res : Option Argument}
    (h : tx.replaceCommand index replacement res = .ok tx') : tx.SamePayer tx' := by
  obtain ⟨-, -, tail, -, rfl, -⟩ := replaceCommand_eq_ok.mp h
  exact ⟨rfl, rfl⟩

end Transaction

/-- A handler that leaves sender and gas alone. -/
def IntentHandler.KeepsPayer (handler : IntentHandler σ) : Prop :=
  ∀ o tx index i w tx' w', (handler tx index i o).exec w = (.ok tx', w') → tx.SamePayer tx'

def IntentRegistry.KeepsPayer (registry : IntentRegistry σ) : Prop :=
  ∀ name handler, registry.get? name = some handler → IntentHandler.KeepsPayer handler

namespace CoinRequest

variable {r : CoinRequest} {tx tx' : Transaction}

theorem samePayer_split {index : Nat} {before : List Command} {coin : Argument}
    (h : r.split tx index before coin = .ok tx') : tx.SamePayer tx' := by
  obtain ⟨mid, amount, p, hadd, -, hreplace⟩ := split_eq_ok h
  exact (Transaction.samePayer_addInput hadd).trans (Transaction.samePayer_replaceCommand hreplace)

theorem samePayer_addOwned {refs : List ObjectRef} {coins : List Argument}
    (h : addOwned tx refs = .ok (coins, tx')) : tx.SamePayer tx' := by
  induction refs generalizing tx coins with
  | nil =>
    cases h
    exact .refl _
  | cons ref refs ih =>
    unfold addOwned at h
    obtain ⟨⟨a, mid⟩, hadd, h⟩ := Except.bind_eq_ok.mp h
    obtain ⟨⟨rest, tx''⟩, hrest, h⟩ := Except.bind_eq_ok.mp h
    cases h
    exact (Transaction.samePayer_addInput hadd).trans (ih hrest)

theorem samePayer_select {o : BuildOptions σ} {name : String} {coins : List Argument}
    {w w' : World σ} (h : (r.select name o tx).exec w = (.ok (coins, tx'), w')) :
    tx.SamePayer tx' := by
  obtain ⟨_, _, _, _, _, _, -, -, -, -, -, hadded⟩ := select_eq_ok h
  exact samePayer_addOwned hadded

end CoinRequest

theorem keepsPayer_coinHandler : IntentHandler.KeepsPayer (coinHandler : IntentHandler σ) := by
  intro o tx index i w tx' w' h
  obtain ⟨r, -, hhandled⟩ := CoinRequest.handled_of_coinHandler h
  cases hhandled with
  | zero _ _ h => exact Transaction.samePayer_replaceCommand h
  | fee _ _ h => exact CoinRequest.samePayer_split h
  | own _ _ hselect h =>
    exact (CoinRequest.samePayer_select hselect).trans (CoinRequest.samePayer_split h)

theorem samePayer_resolveIntents {registry : IntentRegistry σ} {o : BuildOptions σ}
    {tx tx' : Transaction} {w w' : World σ} (hregistry : registry.KeepsPayer)
    (h : (resolveIntents registry o tx).exec w = (.ok tx', w')) : tx.SamePayer tx' := by
  refine (resolveIntents_induct (P := fun cur _ => tx.SamePayer cur) ?_ (.refl tx) h).1
  intro cur index i handler next w w' hcur _ hhandler hnext
  exact hcur.trans (hregistry _ _ hhandler _ _ _ _ _ _ _ hnext)

/-! ### Runs -/

namespace Pipeline

variable {o : BuildOptions σ} {tx tx' : Transaction} {memory : NameMemory} {config : ResolverConfig}
  {registry : IntentRegistry σ} {w : World σ}

/-- **A run keeps what those whom it asks keep**, also when it fails. -/
theorem keeps_run (ho : o.Keeps holds) (hregistry : registry.Keeps holds) (tx : Transaction)
    (hw : holds w.peer) :
    holds ((standardWith memory config registry).run o tx w).2.2.peer :=
  preserves_run (BuildOptions.keeps_iff_preserves.mp ho)
    (by simpa [standardWith, Stage.Preserves] using hregistry.preserves) tx hw

theorem Ran.samePayer {peer : σ} (h : Ran memory config registry o peer tx tx')
    (hregistry : registry.KeepsPayer) : tx.SamePayer h.completed := by
  obtain ⟨-, -, commands, -, hnamed⟩ := resolveNames_eq_ok h.names
  obtain ⟨inputs, hcompleted, -⟩ := resolveObjects_eq_ok h.objects
  have hsettled := samePayer_resolveIntents hregistry h.intents
  rw [hnamed] at hsettled
  rw [hcompleted]
  exact hsettled

/-- **Who pays after a run.** The sender is the one that was set, and so is the gas owner, or else it is the
sender; the coins are chosen from what was set and looked up while the condition held. -/
theorem payer_of_run (ho : o.Keeps holds) (hregistry : registry.Keeps holds)
    (hpayer : registry.KeepsPayer) (hkind : o.kindOnly = false) (hw : holds w.peer)
    (h : ((standardWith memory config registry).run o tx w).1 = .ok tx') :
    ∃ sender payment mid w₁ w₂, tx.sender = some sender ∧
      tx'.gas.owner = some (tx.gas.owner.getD sender) ∧ tx'.gas.payment = some payment ∧
      mid.gas.payment = tx.gas.payment ∧ holds w₁.peer ∧
      (choosePayment config.maxGasObjects o mid (tx.gas.owner.getD sender)).exec w₁ =
        (.ok payment, w₂) := by
  obtain ⟨hran⟩ := ran_of_run h
  have hknown := (keeps_resolveObjects ho config.maxBatchSize hran.settled).of_eq hran.objects
    (hran.holds_handled ho hregistry hw)
  obtain ⟨hsender, hgas⟩ := hran.samePayer hpayer
  obtain ⟨sender, budget, price, payment, hset, -, ⟨w₁, w₂, hprice, hpayment⟩, hfilled⟩ :=
    resolveGas_fills hkind hran.gas
  rw [hsender] at hset
  rw [hgas] at hpayment hfilled
  refine ⟨sender, payment, hran.completed, w₁, w₂, hset, ?_, ?_, ?_, ?_, hpayment⟩
  · rw [hfilled]
  · rw [hfilled]
  · rw [hgas]
  · exact Build.Keeps.of_eq (preserves_choosePrice (BuildOptions.keeps_iff_preserves.mp ho) _) hprice
      hknown

end Pipeline

end ObjectLedger
