import ObjectLedger.Proofs.Executor.Accounting
import ObjectLedger.Proofs.Executor.Payment
import ObjectLedger.Proofs.InMemory.Submission
import ObjectLedger.Proofs.Resolve.Keeping

/-!
# Attempts to execute over the ledger in memory

An executor that has the ledger in memory for its submissions and its questions changes objects and coins by
running a transaction, and in no other way. Where it hands on the effects of the run, its cache follows.
-/

namespace ObjectLedger

/-! ### Waits -/

namespace Inclusion

variable {σ : Type} {holds : σ → Prop}

theorem keeps_waitFor {ledger : Ledger σ}
    (hfetch : ∀ digest now peer, holds peer → holds (ledger.fetch digest now peer).2) (digest : Digest)
    (config : InclusionConfig) (cancelAt : Option Nat) (w : World σ) (hw : holds w.peer) :
    holds (waitFor ledger digest config cancelAt w).2.peer :=
  preserves_waitFor (fun digest now peer _ => hfetch digest now peer) digest config cancelAt w hw

end Inclusion

namespace InMemory

theorem sameHoldings_fetch (digest : Digest) (now : Nat) (m : InMemory) :
    m.SameHoldings (ledger.fetch digest now m).2 := by
  unfold ledger
  simp only
  split
  · exact ⟨rfl, rfl⟩
  · exact ⟨rfl, rfl⟩
  · exact ⟨rfl, rfl⟩

end InMemory

/-! ### Attempts -/

/-- An executor over the ledger in memory, which it also looks things up in, with the built-in stages. -/
structure SerialExecutor.OverMemory (config : ResolverConfig) (registry : IntentRegistry InMemory)
    (signer : Signer InMemory) (e : SerialExecutor InMemory) : Prop where
  ledger : e.inner.ledger = InMemory.ledger
  lookup : e.inner.lookup = some InMemory.lookup
  pipeline : ∃ memory, e.inner.pipeline = .standardWith memory config registry
  signer : e.signer = signer

namespace InMemory

/-- How an attempt with some bytes, if there are any, comes out, and what then becomes of ledger and cache. -/
inductive Attempt (sent : Except ExecutorError (List UInt8)) (a : Address) (m : InMemory)
    (c : ObjectCache) : Except ExecutorError ExecutionResult → InMemory → ObjectCache → Prop
  | unsent {fault : ExecutorError} (h : ∀ refusal, fault ≠ .submission refusal) :
      Attempt sent a m c (.error fault) m c
  | refused {bytes : List UInt8} {fault : ClientError} {m' : InMemory} (hsent : sent = .ok bytes)
      (hsame : m.SameHoldings m') (h : m.Refusal bytes fault) :
      Attempt sent a m c (.error (.submission fault)) m' c
  /-- The ledger ran the transaction, but its effects cannot be read. -/
  | unread {bytes : List UInt8} {fault : DecodeError} {tx : Transaction} {owner : Address}
      {fee : ObjectRef} (hsent : sent = .ok bytes) (h : m.Payable bytes tx owner fee) :
      Attempt sent a m c (.error (.effects fault)) (m.commit tx (Transaction.digest bytes) owner fee).2 c
  | ran {bytes : List UInt8} {result : ExecutionResult} {tx : Transaction} {owner : Address}
      {fee : ObjectRef} (hsent : sent = .ok bytes) (h : m.Payable bytes tx owner fee)
      (heffects : Effects.decode (m.commit tx (Transaction.digest bytes) owner fee).1.effects =
        .ok result.effects) :
      Attempt sent a m c (.ok result) (m.commit tx (Transaction.digest bytes) owner fee).2
        (c.applyEffects result.effects a)

variable {m m' : InMemory} {c c' : ObjectCache} {a : Address} {bytes : List UInt8}
  {sent : Except ExecutorError (List UInt8)} {r : Except ExecutorError ExecutionResult}

theorem Attempt.refusal {fault : ClientError}
    (h : Attempt sent a m c (.error (.submission fault)) m' c') :
    ∃ bytes, sent = .ok bytes ∧ m.Refusal bytes fault := by
  cases h with
  | unsent h => exact absurd rfl (h fault)
  | refused hsent hsame h => exact ⟨_, hsent, h⟩

theorem Attempt.commit {result : ExecutionResult} (h : Attempt sent a m c (.ok result) m' c') :
    ∃ bytes tx owner fee, sent = .ok bytes ∧ m.Payable bytes tx owner fee ∧
      Effects.decode (m.commit tx (Transaction.digest bytes) owner fee).1.effects = .ok result.effects ∧
      m' = (m.commit tx (Transaction.digest bytes) owner fee).2 ∧ c' = c.applyEffects result.effects a := by
  cases h with
  | ran hsent h heffects => exact ⟨_, _, _, _, hsent, h, heffects, rfl, rfl⟩

theorem Attempt.coinsCurrent (h : Attempt sent a m c r m' c') (hm : m.CoinsCurrent) :
    m'.CoinsCurrent := by
  cases h with
  | unsent h => exact hm
  | refused hsent hsame h => exact hsame.coinsCurrent hm
  | unread hsent h => exact sameHoldings_commit.coinsCurrent hm.advance
  | ran hsent h heffects => exact sameHoldings_commit.coinsCurrent hm.advance

def cacheAfter (r : Except ExecutorError ExecutionResult) (c : ObjectCache) : ObjectCache :=
  if r.isOk then c else {}

theorem Attempt.mirrors (h : Attempt sent a m c r m' c') (hc : c.Mirrors m) :
    (cacheAfter r c').Mirrors m' := by
  cases h with
  | unsent h => exact .empty _
  | refused hsent hsame h => exact .empty _
  | unread hsent h => exact .empty _
  | ran hsent h heffects => exact hc.commit heffects

/-- Signed bytes are refused, or run. -/
theorem attempt_of_execute {e e' : CachingExecutor InMemory} {signature : UserSignature}
    {w w' : World InMemory} (hledger : e.ledger = ledger)
    (h : e.execute bytes [signature] a w = (r, e', w')) :
    e'.ledger = e.ledger ∧ e'.lookup = e.lookup ∧ e'.pipeline = e.pipeline ∧
      Attempt (.ok bytes) a w.peer e.cache r w'.peer e'.cache := by
  have hsubmit : ledger.submit bytes [signature] w.peer =
      (((w.peer.run bytes).1, w.peer.latency), (w.peer.run bytes).2) := rfl
  rcases hrun : w.peer.run bytes with ⟨fault | response, m⟩
  · rw [hrun] at hsubmit
    simp only [CachingExecutor.execute, hledger, hsubmit] at h
    cases h
    obtain ⟨hsame, hrefusal⟩ := run_eq_error hrun
    exact ⟨rfl, rfl, rfl, .refused rfl hsame hrefusal⟩
  · rw [hrun] at hsubmit
    simp only [CachingExecutor.execute, hledger, hsubmit] at h
    obtain ⟨tx, owner, fee, hpayable, hcommit⟩ := run_eq_ok hrun
    obtain ⟨hresponse, rfl⟩ := Prod.ext_iff.mp hcommit
    cases heffects : Effects.decode response.effects with
    | error fault =>
      rw [heffects] at h
      cases h
      exact ⟨rfl, rfl, rfl, .unread rfl hpayable⟩
    | ok effects =>
      rw [heffects] at h
      cases h
      exact ⟨rfl, rfl, rfl, .ran rfl hpayable (by rw [hresponse]; exact heffects)⟩

end InMemory

namespace SerialExecutor

variable {config : ResolverConfig} {registry : IntentRegistry InMemory} {signer : Signer InMemory}
  {e e' : SerialExecutor InMemory} {request : ExecuteRequest} {tx : Transaction}
  {w w' : World InMemory} {r : Except ExecutorError ExecutionResult}

theorem requestBytes_ne_submission {fault : ExecutorError}
    (h : (e.requestBytes request w).1 = .error fault) (refusal : ClientError) :
    fault ≠ .submission refusal := by
  obtain ⟨cause, rfl⟩ := requestBytes_eq_error h
  intro heq
  cases heq

section Over

variable (h : e.OverMemory config registry signer)

include h

theorem OverMemory.keeps_buildOptions (budget : Option UInt64) (m : InMemory) :
    (e.inner.buildOptions budget).Keeps m.Asked := by
  intro lookup hlookup
  cases h.lookup.symm.trans hlookup
  exact m.keeps_lookup

variable (hregistry : ∀ m : InMemory, registry.Keeps m.Asked)

include hregistry

theorem OverMemory.requestBytes (request : ExecuteRequest) (w : World InMemory) :
    (e.requestBytes request w).2.1.OverMemory config registry signer ∧
      (e.requestBytes request w).2.1.inner.cache = e.inner.cache ∧
      w.peer.Asked (e.requestBytes request w).2.2.peer := by
  cases request with
  | bytes bytes => exact ⟨h, rfl, .refl _⟩
  | transaction tx =>
    obtain ⟨memory, hpipeline⟩ := h.pipeline
    let o := e.inner.buildOptions (some e.defaultBudget)
    let run := (Pipeline.standardWith memory config registry).run o (e.prepare tx) w
    have hpeer : w.peer.Asked run.2.2.peer :=
      Pipeline.keeps_run (h.keeps_buildOptions _ w.peer) (hregistry w.peer) (e.prepare tx) (.refl w.peer)
    obtain ⟨memory', hused⟩ : ∃ memory', run.2.1 = .standardWith memory' config registry :=
      Pipeline.run_standardWith (e.prepare tx) w
    have hbuilt : (e.build tx w).2.1.inner.pipeline = run.2.1 := by
      simp only [run, ← hpipeline]
      exact Pipeline.build_pipeline _
    have hworld : (e.build tx w).2.2 = run.2.2 := by
      simp only [run, ← hpipeline]
      exact Pipeline.build_world _
    refine ⟨⟨h.ledger, h.lookup, ⟨memory', hbuilt.trans hused⟩, h.signer⟩, rfl, ?_⟩
    change w.peer.Asked (e.build tx w).2.2.peer
    rw [hworld]
    exact hpeer

variable (hsigner : ∀ bytes m, (signer.sign bytes m).2 = m)

include hsigner

theorem OverMemory.attempt (hattempt : e.attempt request w = (r, e', w')) :
    e'.OverMemory config registry signer ∧ ∃ m, w.peer.Asked m ∧
      InMemory.Attempt (e.requestBytes request w).1 signer.address m e.inner.cache r w'.peer
        e'.inner.cache := by
  obtain ⟨hover, hcache, hasked⟩ := h.requestBytes hregistry request w
  rcases hrequest : e.requestBytes request w with ⟨sent, e₁, w₁⟩
  rw [hrequest] at hover hcache hasked
  rw [SerialExecutor.attempt, hrequest] at hattempt
  simp only at hover hcache hasked
  rw [← hcache]
  rcases sent with fault | bytes
  · cases hattempt
    exact ⟨hover, _, hasked, .unsent (requestBytes_ne_submission (by rw [hrequest]))⟩
  obtain ⟨answer, hsigned⟩ : ∃ answer, e₁.signer.sign bytes w₁.peer = (answer, w₁.peer) :=
    ⟨_, Prod.ext rfl (by rw [hover.signer]; exact hsigner bytes w₁.peer)⟩
  simp only [hsigned] at hattempt
  rcases answer with fault | signature
  · cases hattempt
    exact ⟨hover, _, hasked, .unsent fun refusal heq => by cases heq⟩
  · rcases hended : e₁.inner.execute bytes [signature] e₁.signer.address
      { w₁ with peer := w₁.peer } with ⟨r', inner, w₂⟩
    simp only [hended] at hattempt
    cases hattempt
    obtain ⟨hledger, hlookup, hpipeline, hended⟩ := InMemory.attempt_of_execute hover.ledger hended
    rw [hover.signer] at hended
    exact ⟨⟨hledger.trans hover.ledger, hlookup.trans hover.lookup, hpipeline ▸ hover.pipeline,
      hover.signer⟩, w₁.peer, hasked, hended⟩

theorem OverMemory.execute (hexecute : e.execute request w = (r, e', w')) :
    e'.OverMemory config registry signer ∧ ∃ m c, w.peer.Asked m ∧
      InMemory.Attempt (e.requestBytes request w).1 signer.address m e.inner.cache r w'.peer c ∧
      e'.inner.cache = InMemory.cacheAfter r c := by
  rcases hattempt : e.attempt request w with ⟨r₁, e₁, w₁⟩
  obtain ⟨hover, m, hasked, hended⟩ := h.attempt hregistry hsigner hattempt
  rw [SerialExecutor.execute, hattempt] at hexecute
  rcases r₁ with fault | result
  · cases hexecute
    exact ⟨⟨hover.ledger, hover.lookup, hover.pipeline, hover.signer⟩, m, _, hasked, hended, rfl⟩
  · cases hexecute
    exact ⟨⟨hover.ledger, hover.lookup, hover.pipeline, hover.signer⟩, m, _, hasked, hended, rfl⟩

end Over

end SerialExecutor

end ObjectLedger
