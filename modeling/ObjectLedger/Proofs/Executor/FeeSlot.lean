import Mathlib.Tactic.SplitIfs
import ObjectLedger.Executor.Serial

/-!
# The coin that pays next

A serial executor pays with the coin in the fee slot of its cache. Over any run of the queue the slot
holds what the last execution gave back, provided that this execution succeeded and the cache was not
emptied since; everything else that may be asked of the executor leaves the slot alone.
-/

namespace ObjectLedger

variable {σ : Type}

theorem ObjectCache.nextFee_eq_some {e : Effects} {owner : Address} {r : ObjectRef} :
    nextFee e owner = some r ↔
      ∃ feeOwner, e.feeObject = some (r, feeOwner) ∧ feeOwner.isOwnedBy owner = true := by
  rw [nextFee]
  cases e.feeObject with
  | none => simp
  | some fee =>
    obtain ⟨ref, feeOwner⟩ := fee
    simp only [Option.some.injEq, Prod.mk.injEq]
    constructor
    · intro h
      split_ifs at h with howned
      exact ⟨feeOwner, ⟨Option.some.inj h, rfl⟩, howned⟩
    · rintro ⟨_, ⟨rfl, rfl⟩, howned⟩
      exact if_pos howned

theorem CachingExecutor.execute_eq_ok {e e' : CachingExecutor σ} {bytes : List UInt8}
    {signatures : List UserSignature} {owner : Address} {w w' : World σ} {result : ExecutionResult}
    (h : e.execute bytes signatures owner w = (.ok result, e', w')) :
    Effects.decode result.rawEffects = .ok result.effects ∧
      e'.cache = e.cache.applyEffects result.effects owner := by
  rcases hsubmit : e.ledger.submit bytes signatures w.peer with ⟨⟨answer, elapsed⟩, peer⟩
  simp only [execute, hsubmit] at h
  cases answer with
  | error fault => cases h
  | ok response =>
    dsimp only at h
    cases heffects : Effects.decode response.effects with
    | error fault =>
      rw [heffects] at h
      cases h
    | ok effects =>
      rw [heffects] at h
      cases h
      exact ⟨heffects, rfl⟩

namespace SerialExecutor

/-! ### One execution -/

theorem requestBytes_executor (e : SerialExecutor σ) (request : ExecuteRequest) (w : World σ) :
    ∃ pipeline, (e.requestBytes request w).2.1 = { e with inner := { e.inner with pipeline } } := by
  cases request with
  | transaction tx => exact ⟨_, rfl⟩
  | bytes bytes => exact ⟨e.inner.pipeline, rfl⟩

theorem attempt_spec {e e' : SerialExecutor σ} {request : ExecuteRequest} {w w' : World σ}
    {r : Except ExecutorError ExecutionResult} (h : e.attempt request w = (r, e', w')) :
    (e'.signer = e.signer ∧ e'.lastDigest = e.lastDigest) ∧
      ∀ result, r = .ok result → Effects.decode result.rawEffects = .ok result.effects ∧
        e'.inner.cache = e.inner.cache.applyEffects result.effects e.signer.address := by
  obtain ⟨pipeline, hbytes⟩ := requestBytes_executor e request w
  rcases hrequest : e.requestBytes request w with ⟨_ | bytes, e₁, w₁⟩
  · rw [hrequest] at hbytes
    rw [attempt, hrequest] at h
    cases h
    subst hbytes
    exact ⟨⟨rfl, rfl⟩, fun _ h => by cases h⟩
  · rw [hrequest] at hbytes
    rw [attempt, hrequest] at h
    subst hbytes
    rcases hsigned : e.signer.sign bytes w₁.peer with ⟨_ | signature, peer⟩
    · simp only [hsigned] at h
      cases h
      exact ⟨⟨rfl, rfl⟩, fun _ h => by cases h⟩
    · simp only [hsigned] at h
      cases h
      refine ⟨⟨rfl, rfl⟩, fun result hr => ?_⟩
      exact CachingExecutor.execute_eq_ok (e := { e.inner with pipeline }) (Prod.ext hr rfl)

theorem execute_of_ok {e e' : SerialExecutor σ} {request : ExecuteRequest} {w w' : World σ}
    {result : ExecutionResult} (h : e.execute request w = (.ok result, e', w')) :
    Effects.decode result.rawEffects = .ok result.effects ∧ e'.signer = e.signer ∧
      e'.inner.cache = e.inner.cache.applyEffects result.effects e.signer.address ∧
      e'.lastDigest = some result.digest := by
  rcases hattempt : e.attempt request w with ⟨_ | result', e₁, w₁⟩
  · rw [execute, hattempt] at h
    cases h
  · rw [execute, hattempt] at h
    cases h
    obtain ⟨⟨hsigner, -⟩, hok⟩ := attempt_spec hattempt
    obtain ⟨hdecode, hcache⟩ := hok result rfl
    exact ⟨hdecode, hsigner, hcache, rfl⟩

theorem execute_of_error {e e' : SerialExecutor σ} {request : ExecuteRequest} {w w' : World σ}
    {fault : ExecutorError} (h : e.execute request w = (.error fault, e', w')) :
    e'.signer = e.signer ∧ e'.inner.cache = {} ∧ e'.lastDigest = e.lastDigest := by
  rcases hattempt : e.attempt request w with ⟨_ | result', e₁, w₁⟩
  · rw [execute, hattempt] at h
    cases h
    obtain ⟨⟨hsigner, hdigest⟩, -⟩ := attempt_spec hattempt
    exact ⟨hsigner, rfl, hdigest⟩
  · rw [execute, hattempt] at h
    cases h

/-! ### The queue -/

/-- What may be asked of an executor. -/
inductive Operation where
  | build (tx : Transaction)
  | execute (request : ExecuteRequest)
  | resetCache
  | waitFor (digest : Digest) (cancelAt : Option Nat)
  | waitForLast (cancelAt : Option Nat)

/-- What came of an operation. -/
inductive Outcome where
  | built (r : Except ExecutorError (List UInt8))
  | executed (r : Except ExecutorError ExecutionResult)
  | cacheReset
  | waited (r : Except ExecutorError Included)
  | waitedForLast (r : Except ExecutorError (Option Included))

namespace Outcome

/-- Whether the operation was an execution or emptied the cache. -/
def settles : Outcome → Bool
  | executed _ | cacheReset => true
  | built _ | waited _ | waitedForLast _ => false

def digest? : Outcome → Option Digest
  | executed (.ok result) => some result.digest
  | _ => none

end Outcome

def perform (e : SerialExecutor σ) (op : Operation) (w : World σ) :
    Outcome × SerialExecutor σ × World σ :=
  match op with
  | .build tx =>
    let (r, e, w) := e.build tx w
    (.built r, e, w)
  | .execute request =>
    let (r, e, w) := e.execute request w
    (.executed r, e, w)
  | .resetCache =>
    let (e, w) := e.resetCache w
    (.cacheReset, e, w)
  | .waitFor digest cancelAt =>
    let (r, w) := e.waitFor digest cancelAt w
    (.waited r, e, w)
  | .waitForLast cancelAt =>
    let (r, w) := e.waitForLast cancelAt w
    (.waitedForLast r, e, w)

/-- How an operation with an outcome changes cache and last digest. -/
def Outcome.Changes (e e' : SerialExecutor σ) : Outcome → Prop
  | executed (.ok result) =>
    Effects.decode result.rawEffects = .ok result.effects ∧
      e'.inner.cache = e.inner.cache.applyEffects result.effects e.signer.address ∧
      e'.lastDigest = some result.digest
  | executed (.error _) | cacheReset => e'.inner.cache = {} ∧ e'.lastDigest = e.lastDigest
  | built _ | waited _ | waitedForLast _ =>
    e'.inner.cache = e.inner.cache ∧ e'.lastDigest = e.lastDigest

theorem perform_spec {e e' : SerialExecutor σ} {op : Operation} {w w' : World σ} {o : Outcome}
    (h : e.perform op w = (o, e', w')) : e'.signer = e.signer ∧ o.Changes e e' := by
  cases op with
  | build tx =>
    cases h
    exact ⟨rfl, rfl, rfl⟩
  | execute request =>
    rcases hexecute : e.execute request w with ⟨fault | result, e₁, w₁⟩
    · rw [perform, hexecute] at h
      cases h
      exact execute_of_error hexecute
    · rw [perform, hexecute] at h
      cases h
      obtain ⟨hdecode, hsigner, hcache, hdigest⟩ := execute_of_ok hexecute
      exact ⟨hsigner, hdecode, hcache, hdigest⟩
  | resetCache =>
    cases h
    exact ⟨rfl, rfl, rfl⟩
  | waitFor digest cancelAt =>
    cases h
    exact ⟨rfl, rfl, rfl⟩
  | waitForLast cancelAt =>
    cases h
    exact ⟨rfl, rfl, rfl⟩

/-! ### Runs -/

/-- How far a run has come: the executor, the world and what came of the operations so far. -/
structure Progress (σ : Type) where
  executor : SerialExecutor σ
  world : World σ
  outcomes : List Outcome := []

namespace Progress

def next (p : Progress σ) (op : Operation) : Progress σ :=
  let (o, executor, world) := p.executor.perform op p.world
  { executor, world, outcomes := p.outcomes ++ [o] }

def run (p : Progress σ) (ops : List Operation) : Progress σ := ops.foldl next p

def cache (p : Progress σ) : ObjectCache := p.executor.inner.cache

/-- What came of the latest operation that was an execution or emptied the cache. -/
def lastSettled (p : Progress σ) : Option Outcome := (p.outcomes.filter Outcome.settles).getLast?

def latestDigest (p : Progress σ) : Option Digest := (p.outcomes.filterMap Outcome.digest?).getLast?

end Progress

def Outcome.fee? (owner : Address) : Outcome → Option ObjectRef
  | executed (.ok result) => ObjectCache.nextFee result.effects owner
  | _ => none

/-- Slot and last digest are what the outcomes so far call for. -/
structure Progress.Consistent (signer : Signer σ) (p : Progress σ) : Prop where
  signer_eq : p.executor.signer = signer
  decoded : ∀ result, .executed (.ok result) ∈ p.outcomes →
    Effects.decode result.rawEffects = .ok result.effects
  fee : p.cache.feeObject = p.lastSettled.bind (Outcome.fee? signer.address)
  digest : p.executor.lastDigest = p.latestDigest

theorem Progress.lastSettled_next {p : Progress σ} {o : Outcome} {executor : SerialExecutor σ}
    {world : World σ} :
    lastSettled ⟨executor, world, p.outcomes ++ [o]⟩ =
      if o.settles then some o else p.lastSettled := by
  rw [lastSettled, List.filter_append]
  cases h : o.settles with
  | false => simp [h, lastSettled]
  | true => simp [h]

theorem Progress.latestDigest_next {p : Progress σ} {o : Outcome} {executor : SerialExecutor σ}
    {world : World σ} :
    latestDigest ⟨executor, world, p.outcomes ++ [o]⟩ = o.digest?.or p.latestDigest := by
  rw [latestDigest, List.filterMap_append]
  cases h : o.digest? with
  | none => simp [h, latestDigest]
  | some digest => simp [h]

theorem Progress.next_eq {p : Progress σ} {op : Operation} {o : Outcome} {e : SerialExecutor σ}
    {w : World σ} (h : p.executor.perform op p.world = (o, e, w)) :
    p.next op = ⟨e, w, p.outcomes ++ [o]⟩ := by
  rw [next, h]

theorem Progress.Consistent.next {signer : Signer σ} {p : Progress σ} (h : p.Consistent signer)
    (op : Operation) : (p.next op).Consistent signer := by
  rcases hperform : p.executor.perform op p.world with ⟨o, e, w⟩
  obtain ⟨hsigner, hspec⟩ := perform_spec hperform
  rw [Progress.next_eq hperform]
  have hdecoded : ∀ result, .executed (.ok result) ∈ p.outcomes ++ [o] →
      Effects.decode result.rawEffects = .ok result.effects := by
    intro result hmem
    rcases List.mem_append.mp hmem with hmem | hmem
    · exact h.decoded result hmem
    · cases List.mem_singleton.mp hmem
      exact hspec.1
  have hfee : e.inner.cache.feeObject =
      (if o.settles then some o else p.lastSettled).bind (Outcome.fee? signer.address) := by
    match o, hspec with
    | .executed (.ok result), ⟨_, hcache, _⟩ =>
      rw [hcache, h.signer_eq]
      rfl
    | .executed (.error _), ⟨hcache, _⟩ | .cacheReset, ⟨hcache, _⟩ =>
      rw [hcache]
      rfl
    | .built _, ⟨hcache, _⟩ | .waited _, ⟨hcache, _⟩ | .waitedForLast _, ⟨hcache, _⟩ =>
      rw [hcache]
      exact h.fee
  have hdigest : e.lastDigest = o.digest?.or p.latestDigest := by
    match o, hspec with
    | .executed (.ok result), ⟨_, _, hdigest⟩ => exact hdigest
    | .executed (.error _), ⟨_, hdigest⟩ | .cacheReset, ⟨_, hdigest⟩ | .built _, ⟨_, hdigest⟩
    | .waited _, ⟨_, hdigest⟩ | .waitedForLast _, ⟨_, hdigest⟩ => exact hdigest.trans h.digest
  exact ⟨hsigner.trans h.signer_eq, hdecoded, hfee.trans (by rw [Progress.lastSettled_next]),
    hdigest.trans (by rw [Progress.latestDigest_next])⟩

theorem Progress.Consistent.run {signer : Signer σ} {p : Progress σ} (h : p.Consistent signer)
    (ops : List Operation) : (p.run ops).Consistent signer := by
  induction ops generalizing p with
  | nil => exact h
  | cons op ops ih => exact ih (h.next op)

/-- An executor that has done nothing yet, with nothing in its cache. -/
def fresh (ledger : Ledger σ) (lookup : Option (Lookup σ)) (pipeline : Pipeline σ)
    (signer : Signer σ) (defaultBudget : UInt64) (inclusion : InclusionConfig) : SerialExecutor σ :=
  { inner := { ledger, lookup, pipeline }, signer, defaultBudget, inclusion }

theorem Progress.Consistent.of_fresh (ledger : Ledger σ) (lookup : Option (Lookup σ))
    (pipeline : Pipeline σ) (signer : Signer σ) (defaultBudget : UInt64)
    (inclusion : InclusionConfig) (w : World σ) :
    Progress.Consistent signer
      { executor := fresh ledger lookup pipeline signer defaultBudget inclusion, world := w } :=
  ⟨rfl, fun _ h => absurd h List.not_mem_nil, rfl, rfl⟩

/-- What an outcome says about the cache before and after its operation. -/
def Outcome.Leaves (before after : ObjectCache) : Outcome → Prop
  | executed (.error _) | cacheReset => after.entries = [] ∧ after.feeObject = none
  | built _ | waited _ | waitedForLast _ => after = before
  | executed (.ok _) => True

/-- **The slot holds what the latest settled operation calls for.** Whatever ledger, lookup, pipeline
and signer do, after any run of a fresh executor: the fee slot holds a coin exactly when the latest
execution or reset is an execution that succeeded and whose effects give back that coin to the signer;
the last digest is that of the latest successful execution; and whatever is asked next, a failed
execution or a reset empties the cache, while builds and waits leave it as it is. -/
theorem feeObject_run (ledger : Ledger σ) (lookup : Option (Lookup σ)) (pipeline : Pipeline σ)
    (signer : Signer σ) (defaultBudget : UInt64) (inclusion : InclusionConfig) (w : World σ)
    (ops : List Operation) :
    let p := Progress.run
      { executor := fresh ledger lookup pipeline signer defaultBudget inclusion, world := w } ops
    (∀ r, p.cache.feeObject = some r ↔
      ∃ result owner, p.lastSettled = some (.executed (.ok result)) ∧
        Effects.decode result.rawEffects = .ok result.effects ∧
        result.effects.feeObject = some (r, owner) ∧ owner.isOwnedBy signer.address = true) ∧
    p.executor.lastDigest = p.latestDigest ∧
    ∀ op, (p.executor.perform op p.world).1.Leaves p.cache (p.next op).cache := by
  intro p
  have hp : p.Consistent signer :=
    (Progress.Consistent.of_fresh ledger lookup pipeline signer defaultBudget inclusion w).run ops
  refine ⟨fun r => ?_, hp.digest, fun op => ?_⟩
  · rw [hp.fee, Option.bind_eq_some_iff]
    constructor
    · rintro ⟨o, hlast, hfee⟩
      match o, hfee with
      | .executed (.ok result), hfee =>
        obtain ⟨owner, heffects, howned⟩ := ObjectCache.nextFee_eq_some.mp hfee
        refine ⟨result, owner, hlast, hp.decoded result ?_, heffects, howned⟩
        exact (List.mem_filter.mp (List.mem_of_getLast? hlast)).1
    · rintro ⟨result, owner, hlast, -, heffects, howned⟩
      exact ⟨_, hlast, ObjectCache.nextFee_eq_some.mpr ⟨owner, heffects, howned⟩⟩
  · rcases hperform : p.executor.perform op p.world with ⟨o, e, w⟩
    obtain ⟨-, hspec⟩ := perform_spec hperform
    rw [Progress.next_eq hperform]
    match o, hspec with
    | .executed (.ok result), _ => trivial
    | .executed (.error _), ⟨hcache, _⟩ | .cacheReset, ⟨hcache, _⟩ =>
      show e.inner.cache.entries = [] ∧ e.inner.cache.feeObject = none
      rw [hcache]
      exact ⟨rfl, rfl⟩
    | .built _, ⟨hcache, _⟩ | .waited _, ⟨hcache, _⟩ | .waitedForLast _, ⟨hcache, _⟩ => exact hcache

end SerialExecutor

end ObjectLedger
