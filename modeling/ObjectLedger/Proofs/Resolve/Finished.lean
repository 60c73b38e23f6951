import ObjectLedger.Proofs.Resolve.Encodes
import ObjectLedger.Proofs.Resolve.Steady

/-!
# Resolving once more

What a run of the built-in stages gives is finished: no stage finds a name, an intent or an input to
resolve in it, and gas is set unless it is left out. So each stage leaves it as it is, without a question
to anyone, and so does a second run, whatever it may ask and whatever it remembers.
-/

namespace ObjectLedger

/-! ### What the stages find in a text, a command and an input -/

theorem namePiecesWithin_of_notMem {cs : List Char} (h : '@' ∉ cs) (fuel : Nat) :
    ∀ name, .name name ∉ namePiecesWithin fuel cs := by
  induction cs generalizing fuel with
  | nil => cases fuel <;> simp [namePiecesWithin]
  | cons c cs ih =>
    cases fuel with
    | zero => simp [namePiecesWithin]
    | succ fuel =>
      rw [List.mem_cons, not_or] at h
      intro name hname
      have hc : ¬c = '@' := fun hc => h.1 hc.symm
      rw [namePiecesWithin, if_neg hc, List.mem_cons] at hname
      rcases hname with hname | hname
      · cases hname
      · exact ih h.2 fuel name hname

theorem namesIn_of_notMem {text : String} (h : '@' ∉ text.toList) : namesIn text = [] := by
  rw [namesIn, List.filterMap_eq_nil_iff]
  intro piece hpiece
  cases piece with
  | name name => exact absurd hpiece (namePiecesWithin_of_notMem h _ name)
  | other c => rfl

theorem Command.namesIn_of_closed {c : Command} (h : c.openPart? = none) {text : String}
    (htext : text ∈ c.nameTexts) : namesIn text = [] := by
  have hat : text.contains '@' = false := by
    cases c with
    | moveCall call =>
      obtain ⟨⟨a, ha⟩, htypes⟩ := Command.openPart?_moveCall.mp h
      rw [nameTexts, ha] at htext
      exact htypes text htext
    | makeMoveVec elementType elements =>
      have htypes := Command.openPart?_makeMoveVec.mp h
      cases elementType with
      | none => cases htext
      | some t => exact htypes text htext
    | intent i => cases h
    | _ => cases htext
  rw [String.contains_char_eq, decide_eq_false_iff_not] at hat
  exact namesIn_of_notMem hat

theorem Command.isIntent_of_closed {c : Command} (h : c.openPart? = none) :
    Transaction.isIntent c = false := by
  cases c with
  | intent i => cases h
  | _ => rfl

theorem pendingIds_of_resolved {inputs : List Input} (h : ∀ i ∈ inputs, i.isResolved = true) :
    pendingIds inputs = [] := by
  rw [pendingIds, List.filterMap_eq_nil_iff]
  intro i hi
  have hresolved := h i hi
  cases i with
  | unresolved u => cases hresolved
  | _ => rfl

theorem mapM_complete_of_resolved {inputs : List Input} (h : ∀ i ∈ inputs, i.isResolved = true)
    (known : KnownObjects) : inputs.mapM (Input.complete known) = .ok inputs := by
  rw [Except.mapM_eq_ok, List.forall₂_same]
  intro i hi
  have hresolved := h i hi
  cases i with
  | unresolved u => cases hresolved
  | _ => rfl

/-! ### Each stage -/

section Stages

variable {σ : Type} {o : BuildOptions σ} {tx : Transaction}

theorem resolveNames_of_closed (h : ∀ c ∈ tx.commands, c.openPart? = none) (batch : Nat)
    (memory : NameMemory) (w : World σ) :
    resolveNames batch o memory tx w = (.ok tx, memory, w) := by
  have hnames : tx.names = [] := by
    rw [List.eq_nil_iff_forall_not_mem]
    intro name hname
    obtain ⟨c, hc, text, htext, hin⟩ := Transaction.mem_names.mp hname
    rw [Command.namesIn_of_closed (h c hc) htext] at hin
    cases hin
  rw [resolveNames, hnames]
  rfl

theorem resolveIntents_of_closed (h : ∀ c ∈ tx.commands, c.openPart? = none)
    (registry : IntentRegistry σ) : resolveIntents registry o tx = pure tx := by
  have hregistered : tx.unregistered? registry = none := by
    rw [Transaction.unregistered?, List.findSome?_eq_none_iff]
    intro c hc
    have hclosed := h c hc
    cases c with
    | intent i => cases hclosed
    | _ => rfl
  have hfirst : tx.firstIntent? = none := by
    have hnone : ∀ c ∈ tx.commands, Transaction.isIntent c = false := fun c hc =>
      Command.isIntent_of_closed (h c hc)
    rw [Transaction.firstIntent?, ← List.append_nil tx.commands,
      Transaction.firstIntentFrom_append hnone]
    rfl
  rw [resolveIntents, hregistered]
  simp only
  rw [resolveIntentsWithin.eq_def]
  simp only [hfirst]

theorem resolveObjects_of_resolved (h : ∀ i ∈ tx.inputs, i.isResolved = true) (batch : Nat) :
    resolveObjects batch o tx = pure tx := by
  have hcached : cachedObjects o [] = [] := by
    rw [cachedObjects]
    cases o.cache <;> rfl
  rw [resolveObjects, pendingIds_of_resolved h, hcached]
  simp only [List.filter_nil, List.isEmpty_nil, if_true, pure_bind, mapM_complete_of_resolved h]
  rfl

theorem resolveGas_of_set {sender owner : Address} {payment : List ObjectRef} {price budget : UInt64}
    (hsender : tx.sender = some sender)
    (hgas : tx.gas = ⟨some payment, some owner, some price, some budget⟩) (maxCoins : Nat)
    (w : World σ) : (resolveGas maxCoins o tx).exec w = (.ok tx, w) := by
  cases hkind : o.kindOnly with
  | true =>
    rw [resolveGas_kindOnly hkind]
    rfl
  | false =>
    have hbudget : tx.gas.budget.or o.defaultBudget = some budget := by rw [hgas, Option.some_or]
    rw [resolveGas_exec_eq hkind hsender hbudget, choosePrice, choosePayment, hgas]
    simp only [pure_bind, Option.getD_some]
    rw [← hgas]
    rfl

end Stages

/-! ### Finished transactions -/

/-- Nothing is open, nor about sender and gas if these belong to what is built. -/
structure Transaction.Finished (kindOnly : Bool) (tx : Transaction) : Prop where
  resolved : tx.validateResolved = .ok ()
  gas : kindOnly = false → ∃ sender owner payment price budget, tx.sender = some sender ∧
    tx.gas = ⟨some payment, some owner, some price, some budget⟩

/-- The world after a run that asks nobody and takes no time: the run is counted. -/
def World.countRun {σ : Type} (w : World σ) : World σ :=
  { w with metrics := { w.metrics with
    buildsTotal := w.metrics.buildsTotal + 1
    buildLatency := w.metrics.buildLatency.observe .zero } }

namespace Pipeline

variable {σ : Type} {o : BuildOptions σ} {memory : NameMemory} {config : ResolverConfig}
  {registry : IntentRegistry σ} {tx tx' : Transaction} {w : World σ}

theorem finished_of_run (h : ((standardWith memory config registry).run o tx w).1 = .ok tx') :
    tx'.Finished o.kindOnly where
  resolved := by
    obtain ⟨_, -, -, hresolved⟩ := run_eq_ok h
    exact hresolved
  gas hkind := set_of_run hkind h

theorem afterNames_of_finished (h : tx.Finished o.kindOnly) (config : ResolverConfig)
    (registry : IntentRegistry σ) (w : World σ) :
    (afterNames config registry o tx).exec w = (.ok tx, w) := by
  obtain ⟨-, hinputs, hcommands⟩ := Transaction.validateResolved_eq_ok.mp h.resolved
  rw [afterNames, resolveIntents_of_closed hcommands, pure_bind, resolveObjects_of_resolved hinputs,
    pure_bind]
  cases hkind : o.kindOnly with
  | true =>
    rw [resolveGas_kindOnly hkind]
    rfl
  | false =>
    obtain ⟨_, _, _, _, _, hsender, hgas⟩ := h.gas hkind
    exact resolveGas_of_set hsender hgas config.maxGasObjects w

theorem run_of_finished (h : tx.Finished o.kindOnly) (memory : NameMemory) (config : ResolverConfig)
    (registry : IntentRegistry σ) (w : World σ) :
    (standardWith memory config registry).run o tx w =
      (.ok tx, standardWith memory config registry, w.countRun) := by
  obtain ⟨-, -, hcommands⟩ := Transaction.validateResolved_eq_ok.mp h.resolved
  have hstages : ∀ w : World σ, runStages o (standardWith memory config registry).stages tx w =
      (.ok tx, (standardWith memory config registry).stages, w) := by
    intro w
    have hnames := resolveNames_of_closed hcommands config.maxBatchSize memory w (o := o)
    have hrest : (Build.ofExcept (.ok tx) >>= afterNames config registry o).exec w = (.ok tx, w) := by
      rw [← afterNames_of_finished h config registry w]
      rfl
    rw [runStages_standardWith config registry hnames, hrest]
  have hcheck : (Except.ok tx : Except BuildError Transaction).bind
      (fun tx => tx.validateResolved.map fun _ => tx) = .ok tx := by
    simp only [Except.bind, h.resolved, Except.map]
  rw [run]
  simp only [hstages, hcheck]
  rfl

/-! ### Main statement -/

/-- **A resolved transaction is a fixed point of resolution.** When a run of the built-in stages gives a
transaction, every run for the same purpose gives that transaction back, of the same pipeline or of
another one, with other limits and handlers, and whatever it may ask: it asks nobody, learns nothing and
is only counted. -/
theorem run_again (h : ((standardWith memory config registry).run o tx w).1 = .ok tx')
    (o' : BuildOptions σ) (hkind : o'.kindOnly = o.kindOnly) (w' : World σ) :
    ((standardWith memory config registry).run o tx w).2.1.run o' tx' w' =
      (.ok tx', ((standardWith memory config registry).run o tx w).2.1, w'.countRun) ∧
    ∀ memory' config' registry', (standardWith memory' config' registry').run o' tx' w' =
      (.ok tx', standardWith memory' config' registry', w'.countRun) := by
  have hfinished : tx'.Finished o'.kindOnly := hkind ▸ finished_of_run h
  constructor
  · obtain ⟨memory', hpipeline⟩ : ∃ memory', ((standardWith memory config registry).run o tx w).2.1 =
        standardWith memory' config registry := run_standardWith tx w
    rw [hpipeline]
    exact run_of_finished hfinished memory' config registry w'
  · intro memory' config' registry'
    exact run_of_finished hfinished memory' config' registry' w'

/-- The first run looks coins and an object up and hands intents to their handlers; the second one has
nobody to ask and no budget, and a third one no handlers either. -/
theorem run_again_delivered :
    ((standardWith [] {} noticing).run InMemory.options ordered ⟨funded, {}, 0⟩).1 =
        .ok delivered ∧
      (((standardWith [] {} noticing).run InMemory.options ordered ⟨funded, {}, 0⟩).2.1.run {}
        delivered ⟨funded, {}, 1⟩).1 = .ok delivered ∧
      ((standardWith [] {} .empty).run ({} : BuildOptions InMemory) delivered ⟨funded, {}, 2⟩).1 =
        .ok delivered := by
  have hrun : ((standardWith [] {} noticing).run InMemory.options ordered ⟨funded, {}, 0⟩).1 =
      .ok delivered := by decide +kernel
  obtain ⟨hsame, -⟩ := run_again hrun {} rfl ⟨funded, {}, 1⟩
  obtain ⟨-, hother⟩ := run_again hrun {} rfl ⟨funded, {}, 2⟩
  exact ⟨hrun, by rw [hsame], by rw [hother]⟩

end Pipeline

end ObjectLedger
