import ObjectLedger.Proofs.Metrics
import ObjectLedger.Proofs.Resolve.Gas
import ObjectLedger.Resolve.Pipeline

/-!
# What builds preserve

A build asks others, who may change their state with each answer, and it counts what it resolves. It never
touches what is counted of executions. So a condition on the state of the others and on these counts holds
after a build when it held before and no answer breaks it; and code of the caller's own, a handler or a
stage, has to preserve it too.
-/

namespace ObjectLedger

variable {σ α β : Type} {holds : σ → Tally → Prop}

/-- The condition holds of the state of the others and of what is counted of executions. -/
def World.Meets (holds : σ → Tally → Prop) (w : World σ) : Prop := holds w.peer w.metrics.tally

/-! ### Computations -/

namespace Build

/-- Whatever comes of the computation, the condition holds afterwards if it held before. -/
def Preserves (holds : σ → Tally → Prop) (x : Build σ α) : Prop :=
  ∀ w, w.Meets holds → (x.exec w).2.Meets holds

theorem preserves_pure (a : α) : Preserves holds (pure a : Build σ α) := fun _ h => h

theorem preserves_throw (e : BuildError) : Preserves holds (throw e : Build σ α) := fun _ h => h

theorem preserves_ofExcept (r : Except BuildError α) : Preserves holds (ofExcept r) := fun _ h => h

theorem preserves_count {change : Metrics → Metrics} (h : ∀ m, (change m).tally = m.tally) :
    Preserves holds (count change : Build σ Unit) := by
  intro w hw
  change holds w.peer (change w.metrics).tally
  rw [h]
  exact hw

theorem preserves_ask {question : σ → Except ClientError α × σ}
    (h : ∀ t peer, holds peer t → holds (question peer).2 t) : Preserves holds (ask question) :=
  fun w hw => h w.metrics.tally w.peer hw

theorem Preserves.bind {x : Build σ α} {f : α → Build σ β} (hx : Preserves holds x)
    (hf : ∀ a, Preserves holds (f a)) : Preserves holds (x >>= f) := by
  intro w hw
  have hw₁ := hx w hw
  rw [exec_bind]
  generalize x.exec w = outcome at hw₁ ⊢
  rcases outcome with ⟨e | a, w₁⟩
  · exact hw₁
  · exact hf a w₁ hw₁

end Build

/-! ### Those who are asked -/

/-- No answer breaks the condition. -/
structure Lookup.Keeps (lookup : Lookup σ) (holds : σ → Prop) : Prop where
  objects : ∀ ids peer, holds peer → holds (lookup.objects ids peer).2
  packages : ∀ names peer, holds peer → holds (lookup.packages names peer).2
  gasPrice : ∀ peer, holds peer → holds (lookup.gasPrice peer).2
  coins : ∀ owner coinType peer, holds peer → holds (lookup.coins owner coinType peer).2

/-- No answer breaks the condition, whatever the counts. -/
def Lookup.Preserves (lookup : Lookup σ) (holds : σ → Tally → Prop) : Prop :=
  ∀ t, lookup.Keeps fun peer => holds peer t

/-- No answer that a build can get breaks the condition. -/
def BuildOptions.Preserves (o : BuildOptions σ) (holds : σ → Tally → Prop) : Prop :=
  ∀ lookup, o.lookup = some lookup → lookup.Preserves holds

/-- The handlers preserve a condition that no answer breaks. -/
def IntentRegistry.Preserves (registry : IntentRegistry σ) (holds : σ → Tally → Prop) : Prop :=
  ∀ name handler, registry.get? name = some handler → ∀ o tx index i, o.Preserves holds →
    Build.Preserves holds (handler tx index i o)

theorem preserves_learnBatches {lookup : Lookup σ} (hlookup : lookup.Preserves holds)
    (parts : List (List String)) (memory : NameMemory) (w : World σ) (hw : w.Meets holds) :
    (learnBatches lookup parts memory w).2.2.Meets holds := by
  induction parts generalizing memory w with
  | nil => exact hw
  | cons batch rest ih =>
    have hask := Build.preserves_ask (fun t => (hlookup t).packages batch) w hw
    unfold learnBatches
    generalize (Build.ask (lookup.packages batch)).exec w = answer at hask ⊢
    rcases answer with ⟨e | found, w₁⟩
    · exact hask
    · simp only
      rcases learn found batch memory with ⟨e | ⟨⟩, memory₁⟩
      · exact hask
      · exact ih memory₁ _ hask

theorem preserves_fetchObjects {lookup : Lookup σ} (hlookup : lookup.Preserves holds)
    (parts : List (List ObjectId)) (known : KnownObjects) :
    Build.Preserves holds (fetchObjects lookup parts known) := by
  induction parts generalizing known with
  | nil => exact Build.preserves_pure known
  | cons batch rest ih =>
    refine (Build.preserves_ask fun t => (hlookup t).objects batch).bind fun found => ?_
    exact (Build.preserves_ofExcept _).bind fun known => ih known

section Stages

variable {o : BuildOptions σ} (ho : o.Preserves holds)

include ho

theorem Build.preserves_requireLookup {purpose : String} {f : Lookup σ → Build σ α}
    (hf : ∀ lookup : Lookup σ, lookup.Preserves holds → Build.Preserves holds (f lookup)) :
    Build.Preserves holds (o.requireLookup purpose >>= f) := by
  rw [BuildOptions.requireLookup]
  cases hlookup : o.lookup with
  | none =>
    intro w hw
    rw [exec_bind]
    exact hw
  | some lookup =>
    simp only [pure_bind]
    exact hf lookup (ho lookup hlookup)

/-! ### Stages -/

theorem preserves_resolveNames (batch : Nat) (memory : NameMemory) (tx : Transaction) (w : World σ)
    (hw : w.Meets holds) : (resolveNames batch o memory tx w).2.2.Meets holds := by
  unfold resolveNames
  simp only
  split_ifs
  · exact hw
  · exact hw
  · cases hlookup : o.lookup with
    | none => exact hw
    | some lookup =>
      have hlearn := preserves_learnBatches (ho lookup hlookup)
        (batches batch (tx.names.filter fun name => (Table.get? memory name).isNone)) memory w hw
      simp only
      generalize learnBatches lookup _ memory w = learnt at hlearn ⊢
      rcases learnt with ⟨e | ⟨⟩, memory₁, w₁⟩
      · exact hlearn
      · exact hlearn

theorem preserves_resolveIntentsWithin {registry : IntentRegistry σ}
    (hregistry : registry.Preserves holds) (fuel : Nat) (tx : Transaction) :
    Build.Preserves holds (resolveIntentsWithin registry o fuel tx) := by
  induction fuel generalizing tx with
  | zero =>
    unfold resolveIntentsWithin
    cases tx.firstIntent? with
    | none => exact Build.preserves_pure tx
    | some first =>
      simp only
      cases registry.get? first.2.name with
      | none => exact Build.preserves_throw _
      | some handler => exact Build.preserves_throw _
  | succ fuel ih =>
    unfold resolveIntentsWithin
    cases tx.firstIntent? with
    | none => exact Build.preserves_pure tx
    | some first =>
      simp only
      cases hhandler : registry.get? first.2.name with
      | none => exact Build.preserves_throw _
      | some handler =>
        refine (hregistry _ _ hhandler o tx first.1 first.2 ho).bind fun next => ?_
        split_ifs
        · exact Build.preserves_throw _
        · exact ih next

theorem preserves_resolveIntents {registry : IntentRegistry σ} (hregistry : registry.Preserves holds)
    (tx : Transaction) : Build.Preserves holds (resolveIntents registry o tx) := by
  unfold resolveIntents
  cases tx.unregistered? registry with
  | some name => exact Build.preserves_throw _
  | none => exact preserves_resolveIntentsWithin ho hregistry _ tx

theorem preserves_resolveObjects (batch : Nat) (tx : Transaction) :
    Build.Preserves holds (resolveObjects batch o tx) := by
  have hfinish : ∀ known : KnownObjects, Build.Preserves holds (do
      let inputs ← Build.ofExcept (tx.inputs.mapM (Input.complete known))
      return { tx with inputs } : Build σ Transaction) :=
    fun known => (Build.preserves_ofExcept _).bind fun inputs => Build.preserves_pure _
  unfold resolveObjects
  simp only
  split_ifs
  · exact hfinish _
  · refine Build.preserves_requireLookup ho fun lookup hlookup => ?_
    refine (preserves_fetchObjects hlookup _ _).bind fun known => ?_
    refine (Build.preserves_count ?_).bind fun _ => hfinish known
    exact fun _ => rfl

theorem preserves_choosePrice (tx : Transaction) : Build.Preserves holds (choosePrice o tx) := by
  unfold choosePrice
  cases tx.gas.price with
  | some price => exact Build.preserves_pure price
  | none =>
    exact Build.preserves_requireLookup ho fun lookup hlookup =>
      Build.preserves_ask fun t => (hlookup t).gasPrice

theorem preserves_choosePayment (maxCoins : Nat) (tx : Transaction) (owner : Address) :
    Build.Preserves holds (choosePayment maxCoins o tx owner) := by
  unfold choosePayment
  cases tx.gas.payment with
  | some payment => exact Build.preserves_pure payment
  | none =>
    refine Build.preserves_requireLookup ho fun lookup hlookup => ?_
    refine (Build.preserves_ask fun t => (hlookup t).coins owner TypeTag.nativeCoin).bind fun coins => ?_
    cases paymentFrom (max 1 maxCoins) tx.inputs coins with
    | nil => exact Build.preserves_throw _
    | cons first rest => exact Build.preserves_pure _

theorem preserves_resolveGas (maxCoins : Nat) (tx : Transaction) :
    Build.Preserves holds (resolveGas maxCoins o tx) := by
  cases hkind : o.kindOnly with
  | true =>
    rw [resolveGas_kindOnly hkind]
    exact Build.preserves_pure tx
  | false =>
    cases hsender : tx.sender with
    | none =>
      rw [resolveGas_of_sender_none hkind hsender]
      exact Build.preserves_throw _
    | some sender =>
      cases hbudget : tx.gas.budget.or o.defaultBudget with
      | none =>
        rw [resolveGas_of_budget_none hkind hsender hbudget]
        exact Build.preserves_throw _
      | some budget =>
        intro w hw
        rw [resolveGas_exec_eq hkind hsender hbudget]
        refine Build.Preserves.bind (preserves_choosePrice ho tx) (fun price => ?_) w hw
        exact (preserves_choosePayment ho maxCoins tx _).bind fun payment => Build.preserves_pure _

/-! ### Handlers -/

theorem preserves_coinHandler (tx : Transaction) (index : Nat) (i : Intent) :
    Build.Preserves holds (coinHandler tx index i o) := by
  unfold coinHandler
  cases (ofJson? i.data : Option CoinRequest) with
  | none => exact Build.preserves_throw _
  | some r =>
    simp only
    split_ifs
    · exact Build.preserves_throw _
    · exact Build.preserves_ofExcept _
    · exact Build.preserves_ofExcept _
    · have hselect : Build.Preserves holds (r.select i.name o tx) := by
        unfold CoinRequest.select
        cases tx.sender with
        | none => exact Build.preserves_throw _
        | some owner =>
          refine Build.preserves_requireLookup ho fun lookup hlookup => ?_
          refine (Build.preserves_ask fun t => (hlookup t).coins owner r.coinType).bind fun coins => ?_
          simp only
          split_ifs
          · exact Build.preserves_throw _
          · exact Build.preserves_ofExcept _
      refine hselect.bind fun selected => ?_
      obtain ⟨coins, tx'⟩ := selected
      match coins with
      | [] => exact Build.preserves_throw _
      | [coin] => exact Build.preserves_ofExcept _
      | first :: second :: rest => exact Build.preserves_ofExcept _

end Stages

theorem preserves_callbackHandler {call : Json → σ → Except String Unit × σ}
    (hcall : ∀ data peer t, holds peer t → holds (call data peer).2 t) (tx : Transaction)
    (index : Nat) (i : Intent) (o : BuildOptions σ) :
    Build.Preserves holds (callbackHandler call tx index i o) := by
  intro w hw
  have hpeer := hcall i.data w.peer w.metrics.tally hw
  unfold callbackHandler Build.exec ExceptT.run StateT.run ExceptT.mk
  beta_reduce
  generalize call i.data w.peer = answer at hpeer ⊢
  rcases answer with ⟨reason | ⟨⟩, peer⟩
  · exact hpeer
  · exact hpeer

/-! ### Runs -/

/-- Code of the caller's own in the stage preserves a condition that no answer breaks. -/
def Stage.Preserves (holds : σ → Tally → Prop) : Stage σ → Prop
  | intents registry => registry.Preserves holds
  | custom _ resolve => ∀ o tx, o.Preserves holds → Build.Preserves holds (resolve tx o)
  | namedPackages .. | objects _ | gas _ => True

section Runs

variable {o : BuildOptions σ} (ho : o.Preserves holds)

include ho

theorem Stage.preserves_run {s : Stage σ} (hs : s.Preserves holds) (tx : Transaction) (w : World σ)
    (hw : w.Meets holds) : (s.run o tx w).2.2.Meets holds := by
  cases s with
  | namedPackages memory batch => exact preserves_resolveNames ho batch memory tx w hw
  | intents registry => exact preserves_resolveIntents ho hs tx w hw
  | objects batch => exact preserves_resolveObjects ho batch tx w hw
  | gas maxCoins => exact preserves_resolveGas ho maxCoins tx w hw
  | custom name resolve => exact hs o tx ho w hw

namespace Pipeline

theorem preserves_runStages {stages : List (Stage σ)} (hstages : ∀ s ∈ stages, s.Preserves holds)
    (tx : Transaction) (w : World σ) (hw : w.Meets holds) :
    (runStages o stages tx w).2.2.Meets holds := by
  induction stages generalizing tx w with
  | nil => exact hw
  | cons s rest ih =>
    obtain ⟨hs, hrest⟩ := List.forall_mem_cons.mp hstages
    have hran := Stage.preserves_run ho hs tx w hw
    unfold runStages
    generalize s.run o tx w = r at hran
    rcases r with ⟨e | ⟨flow, mid⟩, s', w'⟩
    · exact hran
    · cases flow with
      | proceed => exact ih hrest mid w' hran
      | stop => exact hran

/-- **A run preserves what no answer breaks**, also when it fails. -/
theorem preserves_run {p : Pipeline σ} (hp : ∀ s ∈ p.stages, s.Preserves holds) (tx : Transaction)
    {w : World σ} (hw : w.Meets holds) : (p.run o tx w).2.2.Meets holds := by
  have hran := preserves_runStages ho hp tx { w with
    metrics := { w.metrics with buildsTotal := w.metrics.buildsTotal + 1 } } hw
  unfold run
  simp only
  split
  · exact hran
  · exact hran

end Pipeline

end Runs

end ObjectLedger
