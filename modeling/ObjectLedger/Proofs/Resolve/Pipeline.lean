import ObjectLedger.Proofs.Resolve.Gas
import ObjectLedger.Proofs.Resolve.Intents
import ObjectLedger.Proofs.Resolve.Names
import ObjectLedger.Proofs.Resolve.Objects
import ObjectLedger.Resolve.Pipeline

/-!
# A run of the built-in stages

The pipeline of the built-in stages is the same after a run, but for the names that it learnt. A run
that succeeds is a run of each stage, one after the other. Put together, they keep what the caller wrote:
every command but the intents is there, with its arguments naming what they named, and so is every input
and all that was set.
-/

namespace ObjectLedger

namespace Pipeline

variable {σ : Type} {o : BuildOptions σ} {tx tx' : Transaction} {w : World σ}

/-! ### Stage by stage -/

/-- The built-in stages, with the names that earlier runs learnt. -/
def standardWith (memory : NameMemory) (config : ResolverConfig) (registry : IntentRegistry σ) :
    Pipeline σ where
  stages := [.namedPackages memory config.maxBatchSize, .intents registry,
    .objects config.maxBatchSize, .gas config.maxGasObjects]

variable {memory : NameMemory} {config : ResolverConfig} {registry : IntentRegistry σ}

/-- A stage after a run: the same, but for names that it learnt. -/
inductive Continues : Stage σ → Stage σ → Prop
  | same (s : Stage σ) : Continues s s
  | learnt (memory memory' : NameMemory) (batch : Nat) :
      Continues (.namedPackages memory batch) (.namedPackages memory' batch)

theorem continues_runStages (stages : List (Stage σ)) (tx : Transaction) (w : World σ) :
    List.Forall₂ Continues stages (runStages o stages tx w).2.1 := by
  have hrun : ∀ s tx w, Continues s (Stage.run s o tx w).2.1 := by
    intro s tx w
    cases s with
    | namedPackages memory batch => exact .learnt _ _ _
    | _ => exact .same _
  induction stages generalizing tx w with
  | nil => exact .nil
  | cons s rest ih =>
    have hrest : List.Forall₂ Continues rest rest := List.forall₂_same.mpr fun s _ => .same s
    have hs := hrun s tx w
    unfold runStages
    generalize s.run o tx w = r at hs
    rcases r with ⟨e | ⟨flow, mid⟩, s', w'⟩
    · exact .cons hs hrest
    · cases flow with
      | proceed => exact .cons hs (ih mid w')
      | stop => exact .cons hs hrest

theorem continues_run (p : Pipeline σ) (tx : Transaction) (w : World σ) :
    List.Forall₂ Continues p.stages (p.run o tx w).2.1.stages := by
  unfold run
  simp only
  split <;> exact continues_runStages _ _ _

theorem run_standardWith (tx : Transaction) (w : World σ) :
    ∃ memory', ((standardWith memory config registry).run o tx w).2.1 =
      standardWith memory' config registry := by
  have h := continues_run (o := o) (standardWith memory config registry) tx w
  generalize ((standardWith memory config registry).run o tx w).2.1 = p at h
  obtain ⟨stages⟩ := p
  unfold standardWith at h ⊢
  simp only [List.forall₂_cons_left_iff, List.forall₂_nil_left_iff] at h
  obtain ⟨_, _, hnames, ⟨_, _, hintents, ⟨_, _, hobjects, ⟨_, _, hgas, rfl, rfl⟩, rfl⟩, rfl⟩, rfl⟩ := h
  cases hintents
  cases hobjects
  cases hgas
  cases hnames with
  | same => exact ⟨_, rfl⟩
  | learnt => exact ⟨_, rfl⟩

theorem runStages_cons_eq_ok {s : Stage σ} {rest : List (Stage σ)}
    (h : (runStages o (s :: rest) tx w).1 = .ok tx') :
    ∃ flow mid s' w', s.run o tx w = (.ok (flow, mid), s', w') ∧
      (flow = .proceed → (runStages o rest mid w').1 = .ok tx') := by
  unfold runStages at h
  rcases hs : s.run o tx w with ⟨e | ⟨flow, mid⟩, s', w'⟩
  · rw [hs] at h
    cases h
  · refine ⟨flow, mid, s', w', rfl, fun hflow => ?_⟩
    subst hflow
    rw [hs] at h
    exact h

theorem run_fst (p : Pipeline σ) (tx : Transaction) (w : World σ) :
    (p.run o tx w).1 = (runStages o p.stages tx { w with
      metrics := { w.metrics with buildsTotal := w.metrics.buildsTotal + 1 } }).1.bind
        fun mid => mid.validateResolved.map fun _ => mid := by
  unfold run
  simp only
  split <;> next hcheck => exact hcheck.symm

theorem build_pipeline (p : Pipeline σ) : (p.build o tx w).pipeline = (p.run o tx w).2.1 := by
  unfold build
  rcases p.run o tx w with ⟨_ | _, _, _⟩ <;> rfl

theorem build_world (p : Pipeline σ) : (p.build o tx w).world = (p.run o tx w).2.2 := by
  unfold build
  rcases p.run o tx w with ⟨_ | _, _, _⟩ <;> rfl

theorem run_eq_ok {p : Pipeline σ} (h : (p.run o tx w).1 = .ok tx') :
    ∃ w', w'.peer = w.peer ∧ (runStages o p.stages tx w').1 = .ok tx' ∧
      tx'.validateResolved = .ok () := by
  rw [run_fst] at h
  obtain ⟨mid, hmid, hmap⟩ := Except.bind_eq_ok.mp h
  obtain ⟨⟨⟩, hvalid, rfl⟩ := Except.map_eq_ok.mp hmap
  refine ⟨_, ?_, hmid, hvalid⟩
  rfl

theorem proceed_of_map {r : Except BuildError Transaction} {flow : Flow} {mid : Transaction}
    (h : r.map (Flow.proceed, ·) = .ok (flow, mid)) : r = .ok mid ∧ flow = .proceed := by
  obtain ⟨_, hr, heq⟩ := Except.map_eq_ok.mp h
  cases heq
  exact ⟨hr, rfl⟩

theorem namedPackages_run_eq_ok {batch : Nat} {flow : Flow} {mid : Transaction} {s : Stage σ}
    {w' : World σ} (h : (Stage.namedPackages memory batch).run o tx w = (.ok (flow, mid), s, w')) :
    flow = .proceed ∧ ∃ memory', resolveNames batch o memory tx w = (.ok mid, memory', w') := by
  unfold Stage.run at h
  rcases hr : resolveNames batch o memory tx w with ⟨r, memory', w₁⟩
  simp only [hr] at h
  obtain ⟨hmap, hrest⟩ := Prod.mk.inj h
  obtain ⟨rfl, hflow⟩ := proceed_of_map hmap
  obtain ⟨-, rfl⟩ := Prod.mk.inj hrest
  exact ⟨hflow, memory', rfl⟩

theorem exec_run_eq_ok {x : Build σ Transaction} {flow : Flow} {mid : Transaction} {s s' : Stage σ}
    {w' : World σ}
    (h : ((x.exec w).1.map (Flow.proceed, ·), s, (x.exec w).2) = (.ok (flow, mid), s', w')) :
    flow = .proceed ∧ x.exec w = (.ok mid, w') := by
  obtain ⟨hmap, h⟩ := Prod.mk.inj h
  obtain ⟨hr, hflow⟩ := proceed_of_map hmap
  exact ⟨hflow, Prod.ext hr (Prod.mk.inj h).2⟩

/-- A run that succeeds: names, intents, objects and gas are resolved, one after the other, in worlds that
follow each other, and nothing is open in the end. -/
structure Ran (memory : NameMemory) (config : ResolverConfig) (registry : IntentRegistry σ)
    (o : BuildOptions σ) (peer : σ) (tx tx' : Transaction) where
  memory' : NameMemory
  (named settled completed : Transaction)
  (start learnt handled known final : World σ)
  start_peer : start.peer = peer
  names : resolveNames config.maxBatchSize o memory tx start = (.ok named, memory', learnt)
  intents : (resolveIntents registry o named).exec learnt = (.ok settled, handled)
  objects : (resolveObjects config.maxBatchSize o settled).exec handled = (.ok completed, known)
  gas : (resolveGas config.maxGasObjects o completed).exec known = (.ok tx', final)
  resolved : tx'.validateResolved = .ok ()

theorem ran_of_run (h : ((standardWith memory config registry).run o tx w).1 = .ok tx') :
    Nonempty (Ran memory config registry o w.peer tx tx') := by
  obtain ⟨w₀, hw₀, h, hresolved⟩ := run_eq_ok h
  obtain ⟨flow, named, s, w₁, hs, h⟩ := runStages_cons_eq_ok h
  obtain ⟨rfl, memory', hnames⟩ := namedPackages_run_eq_ok hs
  obtain ⟨flow, settled, s, w₂, hs, h⟩ := runStages_cons_eq_ok (h rfl)
  obtain ⟨rfl, hintents⟩ := exec_run_eq_ok hs
  obtain ⟨flow, completed, s, w₃, hs, h⟩ := runStages_cons_eq_ok (h rfl)
  obtain ⟨rfl, hobjects⟩ := exec_run_eq_ok hs
  obtain ⟨flow, final, s, w₄, hs, h⟩ := runStages_cons_eq_ok (h rfl)
  obtain ⟨rfl, hgas⟩ := exec_run_eq_ok hs
  cases h rfl
  exact ⟨{ start_peer := hw₀, names := hnames, intents := hintents, objects := hobjects, gas := hgas,
           resolved := hresolved, .. }⟩

/-! ### What a run keeps -/

variable {peer : σ} {holds : σ → Prop}

theorem validate_of_addressed {commands : List Command} (hvalid : tx.validate = .ok ())
    (h : List.Forall₂ (Command.Addressed memory) tx.commands commands) :
    ({ tx with commands } : Transaction).validate = .ok () := by
  obtain ⟨hinputs, hcommands, hrefs⟩ := Transaction.validate_eq_ok.mp hvalid
  refine Transaction.validate_eq_ok.mpr ⟨hinputs, ?_, (Command.refsWithin_of_addressed h).mpr hrefs⟩
  exact h.length_eq ▸ hcommands

/-- After names and intents, the commands are the blocks that the commands of the caller became. -/
theorem Ran.blocks (h : Ran memory config registry o peer tx tx') (hvalid : tx.validate = .ok ())
    (hhandles : ∀ i, .intent i ∈ tx.commands → registry.Handles i.name) :
    ∃ blocks, h.settled.commands = Block.allCommands blocks ∧
      Block.Laid (fun place c block => ∃ d, Command.Addressed h.memory' c d ∧
        Settled registry (Input.keys h.settled.inputs) (Block.targets blocks) place d block) 0
        tx.commands blocks ∧
      tx.Keeps h.settled := by
  obtain ⟨-, -, commands, haddressed, hnamed⟩ := resolveNames_eq_ok h.names
  have hintents := h.intents
  rw [hnamed] at hintents
  have hhandles' : ∀ i, .intent i ∈ commands → registry.Handles i.name := by
    intro i hi
    obtain ⟨c, hc, hci⟩ := haddressed.exists_left hi
    obtain ⟨i', rfl, hname⟩ := hci.of_intent
    exact hname ▸ hhandles i' hc
  obtain ⟨blocks, hlaid, hblocks, hkeeps⟩ :=
    settled_of_resolveIntents (validate_of_addressed hvalid haddressed) hhandles' hintents
  exact ⟨blocks, hblocks, hlaid.comp haddressed, hkeeps.inputs, hkeeps.sender, hkeeps.expiration,
    hkeeps.gas⟩

theorem Ran.holds_start (h : Ran memory config registry o peer tx tx') (hpeer : holds peer) :
    holds h.start.peer := by
  rw [h.start_peer]
  exact hpeer

theorem Ran.holds_handled (h : Ran memory config registry o peer tx tx') (ho : o.Keeps holds)
    (hregistry : registry.Keeps holds) (hpeer : holds peer) : holds h.handled.peer :=
  (keeps_resolveIntents ho hregistry h.named).of_eq h.intents
    (keeps_resolveNames ho h.names (h.holds_start hpeer))

theorem completes_of_stages {completed : Transaction} {w₁ w₂ : World σ} {batch maxCoins : Nat}
    (hobjects : (resolveObjects batch o tx).exec w = (.ok completed, w₁))
    (hgas : (resolveGas maxCoins o completed).exec w₁ = (.ok tx', w₂)) :
    tx'.commands = tx.commands ∧ ∀ holds, o.Keyed holds → o.Keeps holds → holds w.peer →
      tx.Keeps tx' ∧ Input.keys tx'.inputs = Input.keys tx.inputs := by
  obtain ⟨inputs, rfl, hkeys⟩ := resolveObjects_eq_ok hobjects
  rcases resolveGas_eq_ok hgas with ⟨-, rfl⟩ | ⟨_, gas, rfl, hgas, -⟩
  · refine ⟨rfl, fun holds ho hkeeps hpeer => ?_⟩
    have hsame := hkeys holds ho hkeeps hpeer
    exact ⟨⟨hsame ▸ List.prefix_rfl, rfl, rfl, .refl _⟩, hsame⟩
  · refine ⟨rfl, fun holds ho hkeeps hpeer => ?_⟩
    have hsame := hkeys holds ho hkeeps hpeer
    exact ⟨⟨hsame ▸ List.prefix_rfl, rfl, rfl, hgas⟩, hsame⟩

/-- **A run keeps what the caller wrote.** The commands become blocks that stand one behind the other and
make up the new commands. A command that is not an intent is a block of its own: the same command, once
names gave way to addresses, and each of its arguments names the same input, the coin that pays, or what
stands for the same result, that of a command or of the coin of an intent. Slots go on standing for what
they stood for, and sender, expiration and the gas data that is set stay as they are. -/
theorem commands_kept (hvalid : tx.validate = .ok ())
    (hhandles : ∀ i, .intent i ∈ tx.commands → registry.Handles i.name) (ho : o.Keyed holds)
    (hkeeps : o.Keeps holds) (hregistry : registry.Keeps holds) (hpeer : holds w.peer)
    (h : ((standardWith memory config registry).run o tx w).1 = .ok tx') :
    ∃ memory' blocks, Learnt o holds memory memory' ∧ tx'.commands = Block.allCommands blocks ∧
      Block.Laid (fun place c block => ∃ d, Command.Addressed memory' c d ∧
        Settled registry (Input.keys tx'.inputs) (Block.targets blocks) place d block) 0
        tx.commands blocks ∧
      tx.Keeps tx' := by
  obtain ⟨hran⟩ := ran_of_run h
  obtain ⟨hlearnt, -⟩ := resolveNames_eq_ok hran.names
  obtain ⟨blocks, hblocks, hlaid, hkept⟩ := hran.blocks hvalid hhandles
  obtain ⟨hcommands, hcompletes⟩ := completes_of_stages hran.objects hran.gas
  obtain ⟨hkept', hkeys⟩ :=
    hcompletes holds ho hkeeps (hran.holds_handled hkeeps hregistry hpeer)
  refine ⟨hran.memory', blocks, hlearnt holds hkeeps (hran.holds_start hpeer),
    hcommands.trans hblocks, ?_, hkept.trans hkept'⟩
  rw [hkeys]
  exact hlaid

/-- A ledger with an object that somebody owns, and two coins of a type. -/
def funded : InMemory where
  objects := [(.ofUInt64 6, ⟨⟨.ofUInt64 6, 1, ⟨.zero⟩⟩, .address (.ofUInt64 1)⟩)]
  coins := [((.ofUInt64 1, InMemory.coinKey "0x5::usd::USD"),
    [⟨⟨.ofUInt64 7, 1, ⟨.zero⟩⟩, 3⟩, ⟨⟨.ofUInt64 8, 1, ⟨.zero⟩⟩, 4⟩])]
  price := 1

/-- The built-in handler, and a callback that accepts all data. -/
def noticing : IntentRegistry InMemory :=
  IntentRegistry.standard.insert "Notice" (callbackHandler fun _ peer => (.ok (), peer))

/-- A transaction with an intent in front of a command, and another one between two. -/
def ordered : Transaction where
  sender := some (.ofUInt64 1)
  gas := ⟨some [⟨.ofUInt64 9, 1, ⟨.zero⟩⟩], none, none, some 100⟩
  inputs := [.pure [1], .unresolved (.ofId (.ofUInt64 6))]
  commands := [.intent ⟨"Notice", [], .null⟩, .splitCoins .feeObject [.input 0],
    .intent ⟨coinWithBalance, [],
      .object [("balance", toJson (5 : UInt64)), ("type", .text "0x5::usd::USD")]⟩,
    .transferObjects [.nestedResult 1 0, .result 2, .input 1] (.input 0)]

/-- The same with two coins merged, and the balance split from them, in place of the second intent. -/
def delivered : Transaction where
  sender := some (.ofUInt64 1)
  gas := ⟨some [⟨.ofUInt64 9, 1, ⟨.zero⟩⟩], some (.ofUInt64 1), some 1, some 100⟩
  inputs := [.pure [1], .object (.owned ⟨.ofUInt64 6, 1, ⟨.zero⟩⟩),
    .object (.owned ⟨.ofUInt64 7, 1, ⟨.zero⟩⟩), .object (.owned ⟨.ofUInt64 8, 1, ⟨.zero⟩⟩),
    .pure [5, 0, 0, 0, 0, 0, 0, 0]]
  commands := [.splitCoins .feeObject [.input 0], .mergeCoins (.input 2) [.input 3],
    .splitCoins (.input 2) [.input 4],
    .transferObjects [.nestedResult 0 0, .nestedResult 2 0, .input 1] (.input 0)]

theorem keyed_funded : InMemory.options.Keyed funded.Asked := by
  refine InMemory.keyed_options fun objectId info hinfo => ?_
  rw [InMemory.object?, funded, Table.get?_cons] at hinfo
  split_ifs at hinfo with hid
  · cases hinfo
    exact hid.symm
  · cases hinfo

theorem keeps_noticing {holds : InMemory → Prop} : noticing.Keeps holds :=
  IntentRegistry.forall_insert (IntentRegistry.forall_standard keeps_coinHandler)
    (keeps_callbackHandler fun _ _ hpeer => hpeer)

theorem commands_kept_delivered :
    ordered.validate = .ok () ∧ (∀ i, .intent i ∈ ordered.commands → noticing.Handles i.name) ∧
      InMemory.options.Keyed funded.Asked ∧ InMemory.options.Keeps funded.Asked ∧
      noticing.Keeps funded.Asked ∧ funded.Asked funded ∧
      ((standardWith [] {} noticing).run InMemory.options ordered ⟨funded, {}, 0⟩).1 = .ok delivered ∧
      ∃ memory' blocks, Learnt InMemory.options funded.Asked [] memory' ∧
        delivered.commands = Block.allCommands blocks ∧
        Block.Laid (fun place c block => ∃ d, Command.Addressed memory' c d ∧
          Settled noticing (Input.keys delivered.inputs) (Block.targets blocks) place d block) 0
          ordered.commands blocks ∧
        ordered.Keeps delivered := by
  have hvalid : ordered.validate = .ok () := by decide +kernel
  have hhandles : ∀ i, .intent i ∈ ordered.commands → noticing.Handles i.name := by
    intro i hi
    simp only [ordered, List.mem_cons, Command.intent.injEq, reduceCtorEq, List.not_mem_nil, false_or,
      or_false] at hi
    rcases hi with rfl | rfl
    · exact .inr ⟨_, rfl⟩
    · exact .inl rfl
  have hkeeps := InMemory.keeps_options funded
  have hfunded := InMemory.Asked.refl funded
  have hrun : ((standardWith [] {} noticing).run InMemory.options ordered ⟨funded, {}, 0⟩).1 =
      .ok delivered := by decide +kernel
  exact ⟨hvalid, hhandles, keyed_funded, hkeeps, keeps_noticing, hfunded, hrun,
    commands_kept hvalid hhandles keyed_funded hkeeps keeps_noticing hfunded hrun⟩

end Pipeline

end ObjectLedger
