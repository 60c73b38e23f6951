import ObjectLedger.Proofs.InMemory.Attempts
import ObjectLedger.Proofs.Transaction.RoundTrip

/-!
# A queue over the ledger in memory

The cache of a serial executor follows the ledger, whatever the queue runs, and also when the ledger refuses
transactions or lets them fail. So the executor, where it chooses what pays, never chooses a spent coin, and
of two such transactions in a row the second pays with what the first gave back.
-/

namespace ObjectLedger

/-! ### What pays -/

/-- A transaction that names no coins to pay with, and nobody but an address for its sender and for its gas
owner. -/
structure Transaction.SelfPaid (tx : Transaction) (a : Address) : Prop where
  payment : tx.gas.payment = none
  sender : ∀ sender, tx.sender = some sender → sender = a
  owner : ∀ owner, tx.gas.owner = some owner → owner = a

theorem Transaction.SelfPaid.getD {tx : Transaction} {a : Address} (h : tx.SelfPaid a) :
    tx.sender.getD a = a ∧ tx.gas.owner.getD a = a := by
  constructor
  · cases hset : tx.sender with
    | none => rfl
    | some sender => exact h.sender sender hset
  · cases hset : tx.gas.owner with
    | none => rfl
    | some owner => exact h.owner owner hset

namespace SerialExecutor

variable {config : ResolverConfig} {registry : IntentRegistry InMemory} {signer : Signer InMemory}
  {e : SerialExecutor InMemory} {tx sent : Transaction} {w : World InMemory} {bytes : List UInt8}

theorem prepare_of_selfPaid {σ : Type} {e : SerialExecutor σ} (h : tx.SelfPaid e.signer.address) :
    (e.prepare tx).sender = some e.signer.address ∧ (e.prepare tx).gas.owner = tx.gas.owner ∧
      (e.prepare tx).gas.payment = e.inner.cache.feeObject.map fun fee => [fee] := by
  have hsender : tx.sender.or (some e.signer.address) = some e.signer.address := by
    rw [Option.or_some, h.getD.1]
  have hpays : ((tx.withDefaultSender e.signer.address).withDefaultBudget e.defaultBudget).gasOwner =
      some e.signer.address := by
    change tx.gas.owner.or (tx.sender.or (some e.signer.address)) = _
    rw [hsender, Option.or_some, h.getD.2]
  unfold prepare
  simp only
  rw [if_pos ⟨hpays, h.payment⟩]
  cases e.inner.cache.feeObject with
  | none => exact ⟨hsender, rfl, h.payment⟩
  | some fee => exact ⟨hsender, rfl, rfl⟩

theorem payment_of_selfPaid (h : e.OverMemory config registry signer)
    (hregistry : ∀ m : InMemory, registry.Keeps m.Asked) (hpayer : registry.KeepsPayer)
    (hself : tx.SelfPaid signer.address) (hcoins : w.peer.CoinsCurrent)
    (hbuild : (e.build tx w).1 = .ok bytes) (hdecode : Transaction.decode bytes = .ok sent) :
    sent.gas.owner = some signer.address ∧ ∃ payment, sent.gas.payment = some payment ∧
      (∀ ref, e.inner.cache.feeObject = some ref → payment = [ref]) ∧
      (e.inner.cache.feeObject = none → payment ≠ [] ∧ ∀ ref ∈ payment, w.peer.Current ref) := by
  obtain ⟨memory, hpipeline⟩ := h.pipeline
  obtain ⟨built, hrun, hencode⟩ := build_eq_ok hbuild
  rw [hpipeline] at hrun
  rw [← h.signer] at hself ⊢
  obtain ⟨hsender, howner, hpayment⟩ := prepare_of_selfPaid hself
  obtain ⟨sender, payment, mid, w₁, w₂, hset, hbuiltOwner, hbuiltPayment, hmid, hasked, hchosen⟩ :=
    Pipeline.payer_of_run (h.keeps_buildOptions _ w.peer) (hregistry w.peer) hpayer rfl (.refl w.peer) hrun
  cases hset.symm.trans hsender
  -- The bytes hold what was built, but for the spelling of types, and so the same gas data.
  obtain ⟨commands, rfl⟩ :=
    Transaction.normalizeTypes_eq_ok (Transaction.normalizeTypes_of_decode hencode hdecode)
  rw [howner, hself.getD.2] at hbuiltOwner hchosen
  refine ⟨hbuiltOwner, payment, hbuiltPayment, fun ref href => ?_, fun hnone => ?_⟩
  · rw [href] at hpayment
    exact (choosePayment_eq_ok hchosen).1 [ref] (hmid.trans hpayment)
  · rw [hnone] at hpayment
    obtain ⟨lookup, coins, hlookup, hanswer, rfl, hne⟩ :=
      choosePayment_of_payment_none (hmid.trans hpayment) hchosen
    refine ⟨hne, fun ref href => ?_⟩
    cases hlookup.symm.trans h.lookup
    cases hanswer
    obtain ⟨coin, hcoin, rfl⟩ := List.mem_map.mp (List.mem_of_mem_filter (List.mem_of_mem_take href))
    have hcurrent := (hasked.sameHoldings.coinsCurrent hcoins).current_of_mem hcoin
    exact hasked.sameHoldings.current_iff.mp hcurrent

/-! ### Events -/

/-- What happens to an executor over the ledger in memory: it is asked for something, or a fault is fixed
for a transaction to come. -/
inductive Event where
  | operation (op : Operation)
  | failSubmit (fault : ClientError)
  | failExecution (failure : ExecutionFailure)

namespace Event

def apply (p : Progress InMemory) : Event → Progress InMemory
  | operation op => p.next op
  | failSubmit fault => { p with world := { p.world with peer := p.world.peer.failSubmit fault } }
  | failExecution failure =>
    { p with world := { p.world with peer := p.world.peer.failExecution failure } }

def run (p : Progress InMemory) (events : List Event) : Progress InMemory := events.foldl apply p

/-- Nothing is executed, and the cache is not emptied. -/
def Idle : Event → Prop
  | operation (.execute _) | operation .resetCache => False
  | operation (.build _) | operation (.waitFor ..) | operation (.waitForLast _) => True
  | failSubmit _ | failExecution _ => True

theorem cache_apply {p : Progress InMemory} {event : Event} (h : event.Idle) :
    (event.apply p).cache = p.cache := by
  match event, h with
  | operation (.build _), _ | operation (.waitFor ..), _ | operation (.waitForLast _), _ => rfl
  | failSubmit _, _ | failExecution _, _ => rfl

theorem cache_run {p : Progress InMemory} {events : List Event} (h : ∀ event ∈ events, event.Idle) :
    (run p events).cache = p.cache := by
  induction events generalizing p with
  | nil => rfl
  | cons event events ih =>
    have hrest := ih (p := event.apply p) fun other hother => h other (List.mem_cons_of_mem _ hother)
    exact hrest.trans (cache_apply (h event List.mem_cons_self))

end Event

/-! ### Runs -/

/-- Cache and listed coins are in step with the ledger. -/
structure Progress.InStep (config : ResolverConfig) (registry : IntentRegistry InMemory)
    (signer : Signer InMemory) (p : Progress InMemory) : Prop where
  executor : p.executor.OverMemory config registry signer
  mirrors : p.cache.Mirrors p.world.peer
  coins : p.world.peer.CoinsCurrent

/-- An executor that has done nothing yet, over the ledger in memory. -/
def overMemory (memory : NameMemory) (config : ResolverConfig) (registry : IntentRegistry InMemory)
    (signer : Signer InMemory) (budget : UInt64) (inclusion : InclusionConfig) :
    SerialExecutor InMemory :=
  fresh InMemory.ledger (some InMemory.lookup) (.standardWith memory config registry) signer budget inclusion

theorem Progress.InStep.start (memory : NameMemory) (budget : UInt64) (inclusion : InclusionConfig)
    (hcoins : w.peer.CoinsCurrent) : Progress.InStep config registry signer
      { executor := overMemory memory config registry signer budget inclusion, world := w } :=
  ⟨⟨rfl, rfl, ⟨memory, rfl⟩, rfl⟩, .empty _, hcoins⟩

theorem Progress.next_execute {σ : Type} {p : Progress σ} {request : ExecuteRequest}
    {r : Except ExecutorError ExecutionResult} {e : SerialExecutor σ} {w : World σ}
    (h : p.executor.execute request p.world = (r, e, w)) :
    p.next (.execute request) = ⟨e, w, p.outcomes ++ [.executed r]⟩ :=
  next_eq (by rw [perform, h])

section Runs

variable {p : Progress InMemory} (hregistry : ∀ m : InMemory, registry.Keeps m.Asked)
  (hsigner : ∀ bytes m, (signer.sign bytes m).2 = m)

theorem Progress.InStep.of_sameHoldings {p' : Progress InMemory} (h : p.InStep config registry signer)
    (hover : p'.executor.OverMemory config registry signer) (hcache : p'.cache = p.cache)
    (hsame : p.world.peer.SameHoldings p'.world.peer) : p'.InStep config registry signer where
  executor := hover
  mirrors := hcache ▸ h.mirrors.of_sameHoldings hsame
  coins := hsame.coinsCurrent h.coins

theorem OverMemory.sameHoldings_waitFor (h : e.OverMemory config registry signer) (digest : Digest)
    (cancelAt : Option Nat) (w : World InMemory) :
    w.peer.SameHoldings (e.waitFor digest cancelAt w).2.peer := by
  have hfetch : ∀ digest now peer, w.peer.SameHoldings peer →
      w.peer.SameHoldings (e.inner.ledger.fetch digest now peer).2 := by
    intro digest now peer hpeer
    rw [h.ledger]
    exact hpeer.trans (InMemory.sameHoldings_fetch digest now peer)
  exact Inclusion.keeps_waitFor hfetch digest e.inclusion cancelAt w ⟨rfl, rfl⟩

include hregistry hsigner

theorem Progress.InStep.next (h : p.InStep config registry signer) (op : Operation) :
    (p.next op).InStep config registry signer := by
  cases op with
  | build tx =>
    obtain ⟨hover, hcache, hasked⟩ := h.executor.requestBytes hregistry (.transaction tx) p.world
    exact h.of_sameHoldings hover hcache hasked.sameHoldings
  | execute request =>
    rcases hexecute : p.executor.execute request p.world with ⟨r, e', w'⟩
    obtain ⟨hover, m, c, hasked, hended, hcache⟩ := h.executor.execute hregistry hsigner hexecute
    rw [Progress.next_execute hexecute]
    exact {
      executor := hover
      mirrors := by
        change e'.inner.cache.Mirrors w'.peer
        rw [hcache]
        exact hended.mirrors (h.mirrors.of_sameHoldings hasked.sameHoldings)
      coins := hended.coinsCurrent (hasked.sameHoldings.coinsCurrent h.coins) }
  | resetCache =>
    exact {
      executor := ⟨h.executor.ledger, h.executor.lookup, h.executor.pipeline, h.executor.signer⟩
      mirrors := .empty _
      coins := h.coins }
  | waitFor digest cancelAt =>
    exact h.of_sameHoldings h.executor rfl (h.executor.sameHoldings_waitFor digest cancelAt p.world)
  | waitForLast cancelAt =>
    refine h.of_sameHoldings h.executor rfl ?_
    change p.world.peer.SameHoldings (p.executor.waitForLast cancelAt p.world).2.peer
    unfold waitForLast
    cases p.executor.lastDigest with
    | none => exact ⟨rfl, rfl⟩
    | some digest => exact h.executor.sameHoldings_waitFor digest cancelAt p.world

theorem Progress.InStep.run (h : p.InStep config registry signer) (events : List Event) :
    (Event.run p events).InStep config registry signer := by
  induction events generalizing p with
  | nil => exact h
  | cons event events ih =>
    refine ih ?_
    cases event with
    | operation op => exact h.next hregistry hsigner op
    | failSubmit fault => exact h.of_sameHoldings h.executor rfl ⟨rfl, rfl⟩
    | failExecution failure => exact h.of_sameHoldings h.executor rfl ⟨rfl, rfl⟩

/-! ### Transactions that the signer pays for -/

omit hsigner in
theorem Progress.InStep.payment (h : p.InStep config registry signer) (hpayer : registry.KeepsPayer)
    (hself : tx.SelfPaid signer.address)
    (hbuild : (p.executor.requestBytes (.transaction tx) p.world).1 = .ok bytes)
    (hdecode : Transaction.decode bytes = .ok sent) :
    sent.gasOwner = some signer.address ∧
      (∀ ref, p.cache.feeObject = some ref → sent.gas.payment = some [ref]) ∧
      ∀ head, sent.gas.payment.bind List.head? = some head → p.world.peer.Current head := by
  obtain ⟨howner, payment, hpayment, hslot, hopen⟩ :=
    payment_of_selfPaid h.executor hregistry hpayer hself h.coins hbuild hdecode
  refine ⟨by rw [Transaction.gasOwner, howner, Option.some_or], fun ref href => ?_, fun head hhead => ?_⟩
  · rw [hpayment, hslot ref href]
  rw [hpayment] at hhead
  cases hfee : p.cache.feeObject with
  | some ref =>
    -- The head is the coin in the slot, which the cache vouches for.
    rw [hslot ref hfee] at hhead
    cases hhead
    exact h.mirrors.fee _ hfee
  | none => exact (hopen hfee).2 head (List.mem_of_head? hhead)

theorem Progress.InStep.available (h : p.InStep config registry signer) (hpayer : registry.KeepsPayer)
    (hself : tx.SelfPaid signer.address) {fee : ObjectRef}
    (hexecute : (p.executor.execute (.transaction tx) p.world).1 =
      .error (.submission (InMemory.unavailable fee))) :
    p.world.peer.submitErrors.head? = some (InMemory.unavailable fee) := by
  obtain ⟨-, m, c, hasked, hended, -⟩ := h.executor.execute hregistry hsigner (Prod.ext hexecute rfl)
  obtain ⟨bytes, hsent, hrefusal⟩ := hended.refusal
  rcases hrefusal.of_unavailable with hscripted | ⟨sent, stale, hdecode, hhead, hstale⟩
  · obtain ⟨_, _, rfl⟩ := hasked
    exact hscripted
  · obtain ⟨-, -, hcurrent⟩ := h.payment hregistry hpayer hself hsent hdecode
    exact absurd (hasked.sameHoldings.current_iff.mpr (hcurrent stale hhead)) hstale

theorem Progress.InStep.ran (h : p.InStep config registry signer) (hpayer : registry.KeepsPayer)
    (hself : tx.SelfPaid signer.address) {result : ExecutionResult} {e' : SerialExecutor InMemory}
    {w' : World InMemory}
    (hexecute : p.executor.execute (.transaction tx) p.world = (.ok result, e', w')) :
    ∃ ref sent, result.effects.feeObject = some (ref, .address signer.address) ∧
      e'.inner.cache.feeObject = some ref ∧ w'.peer.submitted = sent :: p.world.peer.submitted ∧
      ∀ fee, p.cache.feeObject = some fee → sent.gas.payment = some [fee] := by
  obtain ⟨-, m, c, hasked, hended, hcache⟩ := h.executor.execute hregistry hsigner hexecute
  obtain ⟨bytes, sent, owner, fee, hsent, hpayable, heffects, hpeer, rfl⟩ := hended.commit
  obtain ⟨howner, hslot, -⟩ := h.payment hregistry hpayer hself hsent hpayable.decode
  cases howner.symm.trans hpayable.owner
  obtain ⟨hfee, -⟩ := InMemory.effects_of_commit heffects
  refine ⟨_, sent, hfee, ?_, ?_, hslot⟩
  · rw [hcache]
    exact ObjectCache.nextFee_eq_some.mpr ⟨_, hfee, decide_eq_true rfl⟩
  · obtain ⟨_, _, rfl⟩ := hasked
    rw [hpeer]
    rfl

end Runs

/-! ### Main statement -/

/-- **The queue never pays with a spent coin.** An executor starts over a ledger in memory, with each listed
coin at its current version; signer and handlers of intents leave the ledger as it is, and the handlers leave
sender and gas to the executor. Then after any events, whatever was executed and whatever faults were fixed:

* the coin in the fee slot and each object of the cache are as they stand on the ledger;
* a transaction that names no coins and that the signer pays for is not refused for a coin that is unavailable,
  unless this very refusal was fixed beforehand;
* if it is run, then the coin that paid stays at its version until something else is executed or the cache is
  emptied, and the next such transaction that is run pays with that coin alone. -/
theorem payment_current_run (memory : NameMemory) (config : ResolverConfig)
    {registry : IntentRegistry InMemory} {signer : Signer InMemory} (budget : UInt64)
    (inclusion : InclusionConfig) {w : World InMemory} (events : List Event)
    (hregistry : ∀ m : InMemory, registry.Keeps m.Asked) (hpayer : registry.KeepsPayer)
    (hsigner : ∀ bytes m, (signer.sign bytes m).2 = m) (hcoins : w.peer.CoinsCurrent) :
    let p := Event.run
      { executor := overMemory memory config registry signer budget inclusion, world := w } events
    p.cache.Mirrors p.world.peer ∧
    (∀ tx fee, tx.SelfPaid signer.address →
      (p.executor.execute (.transaction tx) p.world).1 = .error (.submission (InMemory.unavailable fee)) →
      p.world.peer.submitErrors.head? = some (InMemory.unavailable fee)) ∧
    ∀ tx result, tx.SelfPaid signer.address →
      (p.executor.execute (.transaction tx) p.world).1 = .ok result →
      ∃ ref, result.effects.feeObject = some (ref, .address signer.address) ∧
        ∀ idle : List Event, (∀ event ∈ idle, event.Idle) →
          let q := Event.run p (.operation (.execute (.transaction tx)) :: idle)
          q.world.peer.Current ref ∧
            ∀ tx' result', tx'.SelfPaid signer.address →
              (q.executor.execute (.transaction tx') q.world).1 = .ok result' →
              ∃ sent, (q.next (.execute (.transaction tx'))).world.peer.submitted =
                  sent :: q.world.peer.submitted ∧ sent.gas.payment = some [ref] := by
  intro p
  have hp : p.InStep config registry signer :=
    Progress.InStep.run hregistry hsigner (.start memory budget inclusion hcoins) events
  refine ⟨hp.mirrors, fun tx fee hself => hp.available hregistry hsigner hpayer hself, ?_⟩
  intro tx result hself hexecute
  rcases hended : p.executor.execute (.transaction tx) p.world with ⟨r, e₁, w₁⟩
  rw [hended] at hexecute
  cases hexecute
  obtain ⟨ref, -, hfee, hslot, -⟩ := hp.ran hregistry hsigner hpayer hself hended
  refine ⟨ref, hfee, fun idle hidle => ?_⟩
  intro q
  have hq : q.InStep config registry signer := hp.run hregistry hsigner _
  have hcache : q.cache.feeObject = some ref := by
    have hkept : q.cache = (p.next (.execute (.transaction tx))).cache := Event.cache_run hidle
    rw [hkept, Progress.next_execute hended]
    exact hslot
  refine ⟨hq.mirrors.fee ref hcache, ?_⟩
  intro tx' result' hself' hexecute'
  obtain ⟨-, sent, -, -, hsubmitted, hpaid⟩ :=
    hq.ran hregistry hsigner hpayer hself' (Prod.ext hexecute' rfl)
  exact ⟨sent, hsubmitted, hpaid ref hcache⟩

def oneCoin : InMemory :=
  ({} : InMemory).addCoins (.ofUInt64 1) TypeTag.nativeCoin [⟨coinAt 77, 1000⟩]

def afterRefusal : Progress InMemory :=
  Event.run
    { executor := overMemory [] {} .standard (InMemory.signer (.ofUInt64 1)) 100 {}
      world := ⟨oneCoin, {}, 0⟩ }
    [.failSubmit (.transport "down"), .operation (.execute (.transaction {}))]

/-- The run goes on with a transaction that the ledger takes, and a build. -/
def afterPayment : Progress InMemory :=
  Event.run afterRefusal
    [.operation (.execute (.transaction {})), .failExecution .insufficientGas, .operation (.build {})]

theorem payment_current_run_again :
    (∀ m : InMemory, (IntentRegistry.standard : IntentRegistry InMemory).Keeps m.Asked) ∧
      (IntentRegistry.standard : IntentRegistry InMemory).KeepsPayer ∧
      (∀ bytes m, ((InMemory.signer (.ofUInt64 1) : Signer InMemory).sign bytes m).2 = m) ∧
      oneCoin.CoinsCurrent ∧ ({} : Transaction).SelfPaid (.ofUInt64 1) ∧
      ∃ result result' ref sent,
        (afterRefusal.executor.execute (.transaction {}) afterRefusal.world).1 = .ok result ∧
        result.effects.feeObject = some (ref, .address (.ofUInt64 1)) ∧
        afterPayment.world.peer.Current ref ∧
        (afterPayment.executor.execute (.transaction {}) afterPayment.world).1 = .ok result' ∧
        (afterPayment.next (.execute (.transaction {}))).world.peer.submitted =
          sent :: afterPayment.world.peer.submitted ∧
        sent.gas.payment = some [ref] := by
  have hregistry : ∀ m : InMemory, (IntentRegistry.standard : IntentRegistry InMemory).Keeps m.Asked :=
    fun m => IntentRegistry.forall_standard keeps_coinHandler
  have hpayer : (IntentRegistry.standard : IntentRegistry InMemory).KeepsPayer :=
    IntentRegistry.forall_standard keepsPayer_coinHandler
  have hsigner : ∀ bytes m, ((InMemory.signer (.ofUInt64 1) : Signer InMemory).sign bytes m).2 = m :=
    fun _ _ => rfl
  have hcoins : ∀ entry ∈ oneCoin.coins, ∀ coin ∈ entry.2,
      (oneCoin.object? coin.ref.objectId).map (·.ref) = some coin.ref := by decide +kernel
  have hself : ({} : Transaction).SelfPaid (.ofUInt64 1) := ⟨rfl, nofun, nofun⟩
  have hfirst : (afterRefusal.executor.execute (.transaction {}) afterRefusal.world).1.isOk = true := by
    decide +kernel
  have hsecond : (afterPayment.executor.execute (.transaction {}) afterPayment.world).1.isOk = true := by
    decide +kernel
  -- Unfolded, the runs are those of the statement word for word; otherwise they would be carried out to
  -- compare.
  unfold afterPayment afterRefusal at *
  obtain ⟨-, -, hchain⟩ := payment_current_run [] {} 100 {} (w := ⟨oneCoin, {}, 0⟩)
    [.failSubmit (.transport "down"), .operation (.execute (.transaction {}))] hregistry hpayer hsigner hcoins
  obtain ⟨result, hresult⟩ := Except.exists_of_isOk hfirst
  obtain ⟨result', hresult'⟩ := Except.exists_of_isOk hsecond
  obtain ⟨ref, hfee, hnext⟩ := hchain {} result hself hresult
  obtain ⟨hcurrent, hpaid⟩ :=
    hnext [.failExecution .insufficientGas, .operation (.build {})] (by simp [Event.Idle])
  obtain ⟨sent, hsubmitted, hpayment⟩ := hpaid {} result' hself hresult'
  exact ⟨hregistry, hpayer, hsigner, hcoins, hself, result, result', ref, sent, hresult, hfee,
    hcurrent, hresult', hsubmitted, hpayment⟩

end SerialExecutor

end ObjectLedger
