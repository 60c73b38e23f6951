import ObjectLedger.Proofs.Resolve.Answers

/-!
# Caches and batches leave no trace

Against a lookup that answers from fixed data, the outcome of a run is a matter of the transaction alone:
it depends neither on what is cached, nor on the number of items in a question, nor on the names that
earlier runs learnt, also those that failed half-way.
-/

namespace ObjectLedger

section Steady

variable {σ : Type} {holds : σ → Prop} {lookup : Lookup σ} {data : FixedData} {o : BuildOptions σ}
  {tx : Transaction}

/-! ### Gas -/

theorem steady_choosePrice (hlookup : lookup.AnswersFrom holds data) (ho : o.lookup = some lookup) :
    Build.Same holds (choosePrice o tx) (choosePrice o tx) := by
  unfold choosePrice
  rw [requireLookup_eq ho]
  cases tx.gas.price with
  | some price => exact .refl (Build.gives_pure price)
  | none => exact .refl (Build.gives_ask hlookup.gasPrice)

theorem steady_choosePayment (hlookup : lookup.AnswersFrom holds data) (ho : o.lookup = some lookup)
    (maxCoins : Nat) (owner : Address) :
    Build.Same holds (choosePayment maxCoins o tx owner) (choosePayment maxCoins o tx owner) := by
  have hcoins := Build.gives_ask (hlookup.coins owner TypeTag.nativeCoin)
  unfold choosePayment
  rw [requireLookup_eq ho]
  cases tx.gas.payment with
  | some payment => exact .refl (Build.gives_pure payment)
  | none =>
    refine (Build.Same.refl hcoins).bind fun coins => ?_
    cases paymentFrom (max 1 maxCoins) tx.inputs coins with
    | nil => exact .refl (Build.gives_throw _)
    | cons first rest => exact .refl (Build.gives_pure _)

theorem steady_resolveGas (hlookup : lookup.AnswersFrom holds data) (ho : o.lookup = some lookup)
    (maxCoins : Nat) (tx : Transaction) :
    Build.Same holds (resolveGas maxCoins o tx) (resolveGas maxCoins o tx) := by
  cases hkind : o.kindOnly with
  | true =>
    rw [resolveGas_kindOnly hkind]
    exact .refl (Build.gives_pure tx)
  | false =>
    cases hsender : tx.sender with
    | none =>
      rw [resolveGas_of_sender_none hkind hsender]
      exact .refl (Build.gives_throw _)
    | some sender =>
      cases hbudget : tx.gas.budget.or o.defaultBudget with
      | none =>
        rw [resolveGas_of_budget_none hkind hsender hbudget]
        exact .refl (Build.gives_throw _)
      | some budget =>
        intro w w' hw hw'
        rw [resolveGas_exec_eq hkind hsender hbudget, resolveGas_exec_eq hkind hsender hbudget]
        refine Build.Same.bind (steady_choosePrice hlookup ho) (fun price => ?_) w w' hw hw'
        refine (steady_choosePayment hlookup ho maxCoins _).bind fun payment => ?_
        exact .refl (Build.gives_pure _)

/-! ### Intents -/

theorem steady_coinHandler (hlookup : lookup.AnswersFrom holds data) (ho : o.lookup = some lookup) :
    IntentHandler.Steady coinHandler holds o := by
  have hofExcept : ∀ r : Except BuildError Transaction,
      Build.Same holds (Build.ofExcept r) (Build.ofExcept r) := fun r => .refl (Build.gives_ofExcept r)
  have hselect : ∀ (r : CoinRequest) (name : String) (tx : Transaction),
      Build.Same holds (r.select name o tx) (r.select name o tx) := by
    intro r name tx
    unfold CoinRequest.select
    cases tx.sender with
    | none => exact .refl (Build.gives_throw _)
    | some owner =>
      simp only [requireLookup_eq ho, pure_bind]
      refine (Build.Same.refl (Build.gives_ask (hlookup.coins owner r.coinType))).bind fun coins => ?_
      split_ifs
      · exact .refl (Build.gives_throw _)
      · exact .refl (Build.gives_ofExcept _)
  intro tx index i cache cache'
  show Build.Same holds (coinHandler tx index i o) (coinHandler tx index i o)
  unfold coinHandler
  cases (ofJson? i.data : Option CoinRequest) with
  | none => exact .refl (Build.gives_throw _)
  | some r =>
    simp only
    split_ifs
    · exact .refl (Build.gives_throw _)
    · exact hofExcept _
    · exact hofExcept _
    · refine (hselect r i.name tx).bind fun selected => ?_
      obtain ⟨coins, tx'⟩ := selected
      match coins with
      | [] => exact .refl (Build.gives_throw _)
      | [coin] => exact hofExcept _
      | first :: second :: rest => exact hofExcept _

theorem steady_standard (hlookup : lookup.AnswersFrom holds data) (ho : o.lookup = some lookup) :
    (IntentRegistry.standard : IntentRegistry σ).Steady holds o :=
  IntentRegistry.forall_standard (steady_coinHandler hlookup ho)

section Registry

variable {registry : IntentRegistry σ}

theorem same_resolveIntentsWithin (hregistry : registry.Steady holds o)
    (cache cache' : Option ObjectCache) (fuel : Nat) (tx : Transaction) :
    Build.Same holds (resolveIntentsWithin registry { o with cache } fuel tx)
      (resolveIntentsWithin registry { o with cache := cache' } fuel tx) := by
  induction fuel generalizing tx with
  | zero =>
    unfold resolveIntentsWithin
    cases tx.firstIntent? with
    | none => exact .refl (Build.gives_pure tx)
    | some first =>
      simp only
      cases registry.get? first.2.name with
      | none => exact .refl (Build.gives_throw _)
      | some handler => exact .refl (Build.gives_throw _)
  | succ fuel ih =>
    unfold resolveIntentsWithin
    cases tx.firstIntent? with
    | none => exact .refl (Build.gives_pure tx)
    | some first =>
      simp only
      cases hhandler : registry.get? first.2.name with
      | none => exact .refl (Build.gives_throw _)
      | some handler =>
        refine (hregistry _ _ hhandler tx first.1 first.2 cache cache').bind fun next => ?_
        split_ifs
        · exact .refl (Build.gives_throw _)
        · exact ih next

theorem same_resolveIntents (hregistry : registry.Steady holds o) (cache cache' : Option ObjectCache)
    (tx : Transaction) :
    Build.Same holds (resolveIntents registry { o with cache } tx)
      (resolveIntents registry { o with cache := cache' } tx) := by
  unfold resolveIntents
  cases tx.unregistered? registry with
  | some name => exact .refl (Build.gives_throw _)
  | none => exact same_resolveIntentsWithin hregistry cache cache' _ tx

end Registry

end Steady

/-! ### Runs -/

namespace Pipeline

variable {σ : Type} {holds : σ → Prop} {lookup : Lookup σ} {data : FixedData} {o : BuildOptions σ}
  {memory memory' : NameMemory} {config : ResolverConfig} {registry : IntentRegistry σ}

/-- What stands behind the stage for names. -/
def afterNames (config : ResolverConfig) (registry : IntentRegistry σ) (o : BuildOptions σ)
    (named : Transaction) : Build σ Transaction := do
  let settled ← resolveIntents registry o named
  let completed ← resolveObjects config.maxBatchSize o settled
  resolveGas config.maxGasObjects o completed

theorem runStages_standardWith (config : ResolverConfig) (registry : IntentRegistry σ)
    {tx : Transaction} {w w₁ : World σ} {r : Except BuildError Transaction}
    (h : resolveNames config.maxBatchSize o memory tx w = (r, memory', w₁)) :
    runStages o (standardWith memory config registry).stages tx w =
      (((Build.ofExcept r >>= afterNames config registry o).exec w₁).1,
        (standardWith memory' config registry).stages,
        ((Build.ofExcept r >>= afterNames config registry o).exec w₁).2) := by
  have hofExcept : (Build.ofExcept r : Build σ Transaction).exec w₁ = (r, w₁) := rfl
  simp only [standardWith, runStages, Stage.run, h, Build.exec_bind, hofExcept, afterNames]
  rcases r with e | named
  · rfl
  · simp only [Except.map]
    rcases (resolveIntents registry o named).exec w₁ with ⟨e | settled, w₂⟩
    · rfl
    · simp only
      rcases (resolveObjects config.maxBatchSize o settled).exec w₂ with ⟨e | completed, w₃⟩
      · rfl
      · simp only
        rcases (resolveGas config.maxGasObjects o completed).exec w₃ with ⟨e | final, w₄⟩
        · rfl
        · rfl

theorem run_pipeline (p : Pipeline σ) (tx : Transaction) (w : World σ) :
    (p.run o tx w).2.1 = ⟨(runStages o p.stages tx { w with
      metrics := { w.metrics with buildsTotal := w.metrics.buildsTotal + 1 } }).2.1⟩ := by
  unfold run
  simp only
  split <;> rfl

/-- The pipeline of the built-in stages after any runs against a lookup, be they successful or not. -/
inductive Used (lookup : Lookup σ) (holds : σ → Prop) (config : ResolverConfig)
    (registry : IntentRegistry σ) : Pipeline σ → Prop
  | fresh : Used lookup holds config registry (standard config registry)
  | again {p : Pipeline σ} {o : BuildOptions σ} {tx : Transaction} {w : World σ}
      (hp : Used lookup holds config registry p) (ho : o.lookup = some lookup) (hw : holds w.peer) :
      Used lookup holds config registry (p.run o tx w).2.1

/-- All that is left of earlier runs is a part of the answers for names. -/
theorem Used.eq_standardWith {p : Pipeline σ} (hlookup : lookup.AnswersFrom holds data)
    (hp : Used lookup holds config registry p) :
    ∃ memory : NameMemory, p = standardWith memory config registry ∧ memory.TrueTo data.package := by
  induction hp with
  | fresh => exact ⟨[], rfl, fun name a h => by cases h⟩
  | @again p o tx w hp ho hw ih =>
    obtain ⟨memory, rfl, hmemory⟩ := ih
    obtain ⟨memory', w', hnames, hmemory', -⟩ := resolveNames_of_answers hlookup ho
      config.maxBatchSize tx (w := { w with
        metrics := { w.metrics with buildsTotal := w.metrics.buildsTotal + 1 } }) hmemory hw
    refine ⟨memory', ?_, hmemory'⟩
    rw [run_pipeline, runStages_standardWith config registry hnames]

theorem same_afterNames (config : ResolverConfig) (hlookup : lookup.AnswersFrom holds data)
    (ho : o.lookup = some lookup) (hregistry : registry.Steady holds o) (size size' : Nat) {cache cache' : Option ObjectCache}
    (hcache : ∀ c ∈ cache, c.AgreesWith data) (hcache' : ∀ c ∈ cache', c.AgreesWith data)
    (named : Transaction) :
    Build.Same holds (afterNames { config with maxBatchSize := size } registry { o with cache } named)
      (afterNames { config with maxBatchSize := size' } registry { o with cache := cache' } named) := by
  unfold afterNames
  refine (same_resolveIntents hregistry cache cache' named).bind fun settled => ?_
  have hobjects := resolveObjects_of_answers hlookup (o := { o with cache }) ho hcache size settled
  have hobjects' := resolveObjects_of_answers hlookup (o := { o with cache := cache' }) ho hcache' size'
    settled
  refine (hobjects.same hobjects').bind fun completed => ?_
  exact steady_resolveGas hlookup ho config.maxGasObjects completed

/-- **Caches and batches leave no trace.** When a lookup answers from fixed data, two runs with handlers
that do not look at the cache or at the state of the others have the same outcome, be it the resolved
transaction or the fault, whatever number of items goes into a question, whatever part of the objects is
cached, and whatever earlier runs learnt from the lookup. -/
theorem run_same (config : ResolverConfig) (hlookup : lookup.AnswersFrom holds data)
    (ho : o.lookup = some lookup) (hregistry : registry.Steady holds o) {size size' : Nat} {p p' : Pipeline σ}
    (hp : Used lookup holds { config with maxBatchSize := size } registry p)
    (hp' : Used lookup holds { config with maxBatchSize := size' } registry p')
    {cache cache' : Option ObjectCache} (hcache : ∀ c ∈ cache, c.AgreesWith data)
    (hcache' : ∀ c ∈ cache', c.AgreesWith data) (tx : Transaction) {w w' : World σ}
    (hw : holds w.peer) (hw' : holds w'.peer) :
    (p.run { o with cache } tx w).1 = (p'.run { o with cache := cache' } tx w').1 := by
  obtain ⟨memory, rfl, hmemory⟩ := hp.eq_standardWith hlookup
  obtain ⟨memory', rfl, hmemory'⟩ := hp'.eq_standardWith hlookup
  obtain ⟨memory₁, w₁, hnames, -, hw₁⟩ := resolveNames_of_answers hlookup (o := { o with cache }) ho size tx
    (w := { w with metrics := { w.metrics with buildsTotal := w.metrics.buildsTotal + 1 } }) hmemory hw
  obtain ⟨memory₂, w₂, hnames', -, hw₂⟩ :=
    resolveNames_of_answers hlookup (o := { o with cache := cache' }) ho size' tx (w := { w' with metrics := { w'.metrics with buildsTotal := w'.metrics.buildsTotal + 1 } })
    hmemory' hw'
  have hnamed : Build.Gives holds (Build.ofExcept (data.named tx)) (data.named tx) :=
    Build.gives_ofExcept _
  have hrest := (Build.Same.refl hnamed).bind
    (same_afterNames config hlookup ho hregistry size size' hcache hcache')
  obtain ⟨r, v, v', hr, hr', -, -⟩ := hrest w₁ w₂ hw₁ hw₂
  rw [run_fst, run_fst, runStages_standardWith { config with maxBatchSize := size } registry hnames,
    runStages_standardWith { config with maxBatchSize := size' } registry hnames', hr, hr']

def oneOfEach : InMemory where
  objects := [(.ofUInt64 6, ⟨⟨.ofUInt64 6, 1, ⟨.zero⟩⟩, .address (.ofUInt64 1)⟩)]
  packages := [("@org/app", .ofUInt64 10)]

def warmed : ObjectCache :=
  ObjectCache.empty.insertObject ⟨⟨.ofUInt64 6, 1, ⟨.zero⟩⟩, .address (.ofUInt64 1)⟩

/-- A call of functions of two packages, one of them by its name, with an object. -/
def calls (package other : PackageRef) (object : Input) : Transaction where
  inputs := [object]
  commands := [.moveCall ⟨package, "m", "f", [], [.input 0]⟩, .moveCall ⟨other, "m", "g", [], []⟩]

/-- The pipeline after a run that learnt a name and failed for the next one. -/
def halfway : Pipeline InMemory :=
  ((standard { maxBatchSize := 1 } .standard).run InMemory.kindOptions
    (calls (.named "@org/app") (.named "@org/none") (.pure [1])) ⟨oneOfEach, {}, 0⟩).2.1

theorem agreesWith_warmed : warmed.AgreesWith oneOfEach.data := by
  intro objectId info h
  by_cases heq : objectId = .ofUInt64 6
  · subst heq
    exact h
  · have hother : warmed.object? objectId = ObjectCache.empty.object? objectId :=
      ObjectCache.object?_insertObject heq
    rw [hother] at h
    cases h

theorem run_same_halfway :
    InMemory.lookup.AnswersFrom oneOfEach.Asked oneOfEach.data ∧
      (.standard : IntentRegistry InMemory).Steady oneOfEach.Asked InMemory.kindOptions ∧
      Used InMemory.lookup oneOfEach.Asked { maxBatchSize := 1 } .standard halfway ∧
      (∀ c ∈ some warmed, c.AgreesWith oneOfEach.data) ∧ oneOfEach.Asked oneOfEach ∧
      (halfway.run { InMemory.kindOptions with cache := some warmed }
          (calls (.named "@org/app") (.address .zero) (.unresolved (.ofId (.ofUInt64 6))))
          ⟨oneOfEach, {}, 0⟩).1 =
        .ok (calls (.address (.ofUInt64 10)) (.address .zero)
          (.object (.owned ⟨.ofUInt64 6, 1, ⟨.zero⟩⟩))) ∧
      (halfway.run { InMemory.kindOptions with cache := some warmed }
          (calls (.named "@org/app") (.address .zero) (.unresolved (.ofId (.ofUInt64 6))))
          ⟨oneOfEach, {}, 0⟩).1 =
        ((standard { maxBatchSize := 50 } .standard).run { InMemory.kindOptions with cache := none }
          (calls (.named "@org/app") (.address .zero) (.unresolved (.ofId (.ofUInt64 6))))
          ⟨oneOfEach, {}, 0⟩).1 := by
  have hlookup := oneOfEach.answersFrom_lookup
  have hasked := InMemory.Asked.refl oneOfEach
  have hregistry : (.standard : IntentRegistry InMemory).Steady oneOfEach.Asked InMemory.kindOptions :=
    steady_standard hlookup rfl
  have hused : Used InMemory.lookup oneOfEach.Asked { maxBatchSize := 1 } .standard halfway :=
    .again .fresh rfl hasked
  have hcache : ∀ c ∈ some warmed, c.AgreesWith oneOfEach.data := by
    rintro c ⟨⟩
    exact agreesWith_warmed
  exact ⟨hlookup, hregistry, hused, hcache, hasked, by decide +kernel,
    run_same {} hlookup rfl hregistry hused .fresh hcache (fun _ h => by cases h) _ hasked hasked⟩

end Pipeline

end ObjectLedger
