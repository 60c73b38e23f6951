import ObjectLedger.Proofs.Executor.FeeSlot
import ObjectLedger.Proofs.Resolve.Preserving
import ObjectLedger.Proofs.Resolve.Steady

/-!
# Executions accounted for

Counters are raised at several places of an execution: one when the ledger is asked, one by the status of the
effects, one by the category of a failure, one with each reset. Over a run they add up, however the ledger,
the lookup and the signer answer, so long as code of the caller's own leaves these counters alone.
-/

namespace ObjectLedger

variable {σ : Type}

/-! ### Waits -/

namespace Inclusion

variable {holds : σ → Tally → Prop}

theorem preserves_pollFrom {t : Wait σ}
    (hfetch : ∀ digest now peer tally, holds peer tally → holds (t.ledger.fetch digest now peer).2 tally)
    (fuel failures : Nat) (w : World σ) (hw : w.Meets holds) :
    (pollFrom t fuel failures w).2.Meets holds := by
  induction fuel generalizing failures w with
  | zero => exact hw
  | succ fuel ih =>
    have hpeer := hfetch t.digest w.clock w.peer w.metrics.tally hw
    have hagain : ∀ (failures wake : Nat) (w : World σ), w.Meets holds →
        (if wake ≤ t.deadline then pollFrom t fuel failures { w with clock := wake }
          else timedOut t w).2.Meets holds := by
      intro failures wake w hw
      split_ifs
      · exact ih failures _ hw
      · exact hw
    unfold pollFrom
    split_ifs with hcancelled
    · exact hw
    generalize t.ledger.fetch t.digest w.clock w.peer = answer at hpeer ⊢
    rcases answer with ⟨fault | - | effects, peer⟩
    · simp only
      split
      · exact hpeer
      · exact hagain _ _ _ hpeer
    · simp only
      split
      · exact hpeer
      · exact hagain _ _ _ hpeer
    · exact hpeer

theorem preserves_waitFor {ledger : Ledger σ}
    (hfetch : ∀ digest now peer tally, holds peer tally → holds (ledger.fetch digest now peer).2 tally)
    (digest : Digest) (config : InclusionConfig) (cancelAt : Option Nat) (w : World σ)
    (hw : w.Meets holds) : (waitFor ledger digest config cancelAt w).2.Meets holds := by
  let t : Wait σ := { ledger, digest, backoff := .ofConfig config, timeoutMs := config.timeoutMs
                      deadline := w.clock + config.timeoutMs.toNat, cancelAt }
  have hpolled := preserves_pollFrom (t := t) hfetch (config.timeoutMs.toNat + 1) 0 w hw
  unfold waitFor
  simp only
  generalize pollFrom t _ 0 w = outcome at hpolled ⊢
  rcases outcome with ⟨_ | _, _⟩
  · exact hpolled
  · exact hpolled

end Inclusion

/-! ### Builds -/

/-- The computation does not touch what is counted of executions. -/
def Build.LeavesTally {α : Type} (x : Build σ α) : Prop :=
  ∀ w, (x.exec w).2.metrics.tally = w.metrics.tally

/-- The handler does not touch what is counted of executions. -/
def IntentHandler.LeavesTally (handler : IntentHandler σ) : Prop :=
  ∀ tx index i o, (handler tx index i o).LeavesTally

/-- Code of the caller's own in the stage does not touch what is counted of executions. -/
def Stage.LeavesTally : Stage σ → Prop
  | intents registry => ∀ name handler, registry.get? name = some handler →
      IntentHandler.LeavesTally handler
  | custom _ resolve => ∀ tx o, (resolve tx o).LeavesTally
  | namedPackages .. | objects _ | gas _ => True

/-- Code of the caller's own in the pipeline does not touch what is counted of executions. -/
def Pipeline.LeavesTally (p : Pipeline σ) : Prop := ∀ s ∈ p.stages, s.LeavesTally

theorem Stage.LeavesTally.preserves {s : Stage σ} (h : s.LeavesTally) (t : Tally) :
    s.Preserves fun _ t' => t' = t := by
  cases s with
  | intents registry =>
    intro name handler hhandler o tx index i _ w hw
    exact (h name handler hhandler tx index i o w).trans hw
  | custom name resolve => exact fun o tx _ w hw => (h tx o w).trans hw
  | _ => trivial

theorem Stage.LeavesTally.continues {s s' : Stage σ} (h : s.LeavesTally)
    (hs : Pipeline.Continues s s') : s'.LeavesTally := by
  cases hs with
  | same => exact h
  | learnt => trivial

theorem BuildOptions.preserves_tally (o : BuildOptions σ) (t : Tally) :
    o.Preserves fun _ t' => t' = t :=
  fun _ _ _ => ⟨fun _ _ h => h, fun _ _ h => h, fun _ h => h, fun _ _ _ h => h⟩

namespace Pipeline

variable {p : Pipeline σ} {o : BuildOptions σ} {tx : Transaction} {w : World σ}

theorem LeavesTally.tally_run (h : p.LeavesTally) :
    (p.run o tx w).2.2.metrics.tally = w.metrics.tally := by
  have hstages : ∀ s ∈ p.stages, s.Preserves fun _ t => t = w.metrics.tally := fun s hs =>
    (h s hs).preserves _
  exact preserves_run (o.preserves_tally _) hstages tx rfl

theorem LeavesTally.run (h : p.LeavesTally) : (p.run o tx w).2.1.LeavesTally := by
  intro s' hs'
  obtain ⟨s, hs, hcontinues⟩ := (continues_run (o := o) p tx w).exists_left hs'
  exact (h s hs).continues hcontinues

end Pipeline

theorem leavesTally_coinHandler : IntentHandler.LeavesTally (coinHandler : IntentHandler σ) :=
  fun tx index i o w => preserves_coinHandler (o.preserves_tally w.metrics.tally) tx index i w rfl

theorem leavesTally_standardWith (memory : NameMemory) (config : ResolverConfig) :
    (Pipeline.standardWith memory config .standard : Pipeline σ).LeavesTally := by
  simpa [Pipeline.LeavesTally, Pipeline.standardWith, Stage.LeavesTally] using
    IntentRegistry.forall_standard leavesTally_coinHandler

/-! ### One operation -/

def Tally.fail (t : Tally) (category : String) : Tally := { t with errors := t.errors.bump category }

def Tally.reset (t : Tally) : Tally := { t with resets := t.resets + 1 }

/-- Whether the ledger had been asked before the failure. -/
def ExecutorError.isAsked : ExecutorError → Bool
  | submission _ | effects _ => true
  | build _ | signing _ | wait _ => false

theorem ExecutorError.isAsked_toNat (fault : ExecutorError) :
    fault.isAsked.toNat =
      (if "submission" = fault.category then 1 else 0) + if "effects" = fault.category then 1 else 0 := by
  cases fault <;> rfl

/-- What an attempt counts: that the ledger was asked, and the status that it answered with. -/
def Tally.attempted (t : Tally) : Except ExecutorError ExecutionResult → Tally
  | .ok result =>
    if result.effects.status.isSuccess then { t with total := t.total + 1, success := t.success + 1 }
    else { t with total := t.total + 1, failedStatus := t.failedStatus + 1 }
  | .error fault => { t with total := t.total + fault.isAsked.toNat }

theorem CachingExecutor.tally_execute {e e' : CachingExecutor σ} {bytes : List UInt8}
    {signatures : List UserSignature} {owner : Address} {w w' : World σ}
    {r : Except ExecutorError ExecutionResult}
    (h : e.execute bytes signatures owner w = (r, e', w')) :
    w'.metrics.tally = w.metrics.tally.attempted r ∧ e'.pipeline = e.pipeline := by
  rcases hsubmit : e.ledger.submit bytes signatures w.peer with ⟨⟨fault | response, elapsed⟩, peer⟩
  · simp only [execute, hsubmit] at h
    cases h
    exact ⟨rfl, rfl⟩
  · cases heffects : Effects.decode response.effects with
    | error fault =>
      simp only [execute, hsubmit, heffects] at h
      cases h
      exact ⟨rfl, rfl⟩
    | ok effects =>
      simp only [execute, hsubmit, heffects] at h
      cases h
      rw [Tally.attempted]
      cases effects.status.isSuccess <;> exact ⟨rfl, rfl⟩

namespace SerialExecutor

variable {e e' : SerialExecutor σ} {request : ExecuteRequest} {w w' : World σ}

theorem requestBytes_eq_error {fault : ExecutorError}
    (h : (e.requestBytes request w).1 = .error fault) : ∃ cause, fault = .build cause := by
  cases request with
  | bytes bytes => cases h
  | transaction tx =>
    change ((e.inner.build _ (e.prepare tx) w).1).mapError ExecutorError.build = _ at h
    generalize (e.inner.build _ (e.prepare tx) w).1 = result at h
    cases result with
    | error cause => exact ⟨cause, (Except.error.inj h).symm⟩
    | ok bytes => cases h

theorem tally_build (h : e.inner.pipeline.LeavesTally) (tx : Transaction) :
    (e.build tx w).2.2.metrics.tally = w.metrics.tally ∧
      (e.build tx w).2.1.inner.pipeline.LeavesTally := by
  change (e.inner.pipeline.build _ (e.prepare tx) w).world.metrics.tally = _ ∧
    (e.inner.pipeline.build _ (e.prepare tx) w).pipeline.LeavesTally
  rw [Pipeline.build_world, Pipeline.build_pipeline]
  exact ⟨h.tally_run, h.run⟩

theorem tally_requestBytes (h : e.inner.pipeline.LeavesTally) (request : ExecuteRequest)
    (w : World σ) :
    (e.requestBytes request w).2.2.metrics.tally = w.metrics.tally ∧
      (e.requestBytes request w).2.1.inner.pipeline.LeavesTally := by
  cases request with
  | bytes bytes => exact ⟨rfl, h⟩
  | transaction tx => exact tally_build h tx

theorem tally_attempt (he : e.inner.pipeline.LeavesTally) {r : Except ExecutorError ExecutionResult}
    (h : e.attempt request w = (r, e', w')) :
    w'.metrics.tally = w.metrics.tally.attempted r ∧ e'.inner.pipeline.LeavesTally := by
  obtain ⟨hsame, hpipeline⟩ := tally_requestBytes he request w
  rcases hrequest : e.requestBytes request w with ⟨fault | bytes, e₁, w₁⟩
  · rw [hrequest] at hsame hpipeline
    obtain ⟨cause, rfl⟩ := requestBytes_eq_error (by rw [hrequest])
    rw [attempt, hrequest] at h
    cases h
    exact ⟨hsame, hpipeline⟩
  · rw [hrequest] at hsame hpipeline
    rw [attempt, hrequest] at h
    simp only at hsame hpipeline h
    rcases hsigned : e₁.signer.sign bytes w₁.peer with ⟨fault | signature, peer⟩
    · simp only [hsigned] at h
      cases h
      exact ⟨hsame, hpipeline⟩
    · rcases hended : e₁.inner.execute bytes [signature] e₁.signer.address { w₁ with peer } with
        ⟨r', inner, w₂⟩
      simp only [hsigned, hended] at h
      cases h
      obtain ⟨hcounted, hkept⟩ := CachingExecutor.tally_execute hended
      rw [hcounted, ← hsame]
      exact ⟨rfl, hkept ▸ hpipeline⟩

theorem tally_waitFor (digest : Digest) (cancelAt : Option Nat) :
    (e.waitFor digest cancelAt w).2.metrics.tally = w.metrics.tally := by
  let holds : σ → Tally → Prop := fun _ t => t = w.metrics.tally
  have hfetch : ∀ digest now peer tally,
      holds peer tally → holds (e.inner.ledger.fetch digest now peer).2 tally := fun _ _ _ _ h => h
  exact Inclusion.preserves_waitFor hfetch digest e.inclusion cancelAt w rfl

theorem tally_waitForLast (cancelAt : Option Nat) :
    (e.waitForLast cancelAt w).2.metrics.tally = w.metrics.tally := by
  rw [waitForLast]
  cases e.lastDigest with
  | none => rfl
  | some digest => exact tally_waitFor digest cancelAt

def Outcome.ran : Outcome → Bool
  | executed (.ok _) => true
  | executed (.error _) | built _ | cacheReset | waited _ | waitedForLast _ => false

def Outcome.failed : Outcome → Bool
  | executed (.error _) => true
  | executed (.ok _) | built _ | cacheReset | waited _ | waitedForLast _ => false

def Outcome.isReset : Outcome → Bool
  | cacheReset => true
  | built _ | executed _ | waited _ | waitedForLast _ => false

def Operation.isReset : Operation → Bool
  | resetCache => true
  | build _ | execute _ | waitFor _ _ | waitForLast _ => false

/-- What an operation with an outcome counts. -/
def Outcome.tallied (t : Tally) : Outcome → Tally
  | executed (.ok result) => t.attempted (.ok result)
  | executed (.error fault) => ((t.attempted (.error fault)).fail fault.category).reset
  | cacheReset => t.reset
  | built _ | waited _ | waitedForLast _ => t

theorem tally_perform (he : e.inner.pipeline.LeavesTally) {op : Operation} {o : Outcome}
    (h : e.perform op w = (o, e', w')) :
    w'.metrics.tally = o.tallied w.metrics.tally ∧ o.isReset = op.isReset ∧
      e'.inner.pipeline.LeavesTally := by
  cases op with
  | build tx =>
    obtain ⟨hsame, hpipeline⟩ := tally_build (w := w) he tx
    cases h
    exact ⟨hsame, rfl, hpipeline⟩
  | execute request =>
    rcases hattempt : e.attempt request w with ⟨fault | result, e₁, w₁⟩
    · obtain ⟨hcounted, hpipeline⟩ := tally_attempt he hattempt
      rw [perform, execute, hattempt] at h
      cases h
      rw [Outcome.tallied, ← hcounted]
      exact ⟨rfl, rfl, hpipeline⟩
    · obtain ⟨hcounted, hpipeline⟩ := tally_attempt he hattempt
      rw [perform, execute, hattempt] at h
      cases h
      exact ⟨hcounted, rfl, hpipeline⟩
  | resetCache =>
    cases h
    exact ⟨rfl, rfl, he⟩
  | waitFor digest cancelAt =>
    cases h
    exact ⟨tally_waitFor digest cancelAt, rfl, he⟩
  | waitForLast cancelAt =>
    cases h
    exact ⟨tally_waitForLast cancelAt, rfl, he⟩

end SerialExecutor

/-! ### Runs -/

/-- The counts add up after a number of executions that came to effects, of executions that failed and of
resets on request. -/
structure Tally.AddsUp (ran failures resets : Nat) (t : Tally) : Prop where
  ran : t.success + t.failedStatus = ran
  total : t.total = t.success + t.failedStatus + t.errors.count "submission" + t.errors.count "effects"
  errors : (t.errors.map Prod.snd).sum = failures
  resets : t.resets = failures + resets
  ascending : t.errors.Ascending

namespace Tally.AddsUp

variable {ran failures resets : Nat} {t : Tally}

theorem attempted (h : t.AddsUp ran failures resets) (result : ExecutionResult) :
    (t.attempted (.ok result)).AddsUp (ran + 1) failures resets := by
  have hran := h.ran
  have htotal := h.total
  rw [Tally.attempted]
  split_ifs
  · exact ⟨by simp only; omega, by simp only; omega, h.errors, h.resets, h.ascending⟩
  · exact ⟨by simp only; omega, by simp only; omega, h.errors, h.resets, h.ascending⟩

theorem failed (h : t.AddsUp ran failures resets) (fault : ExecutorError) :
    ((t.attempted (.error fault)).fail fault.category).reset.AddsUp ran (failures + 1) resets where
  ran := h.ran
  total := by
    have hsubmission := LabelledCounts.count_bump h.ascending fault.category "submission"
    have heffects := LabelledCounts.count_bump h.ascending fault.category "effects"
    simp only [Tally.attempted, Tally.fail, Tally.reset, hsubmission, heffects, h.total,
      fault.isAsked_toNat]
    omega
  errors := (LabelledCounts.sum_bump _ _).trans (congrArg (· + 1) h.errors)
  resets := by
    change t.resets + 1 = failures + 1 + resets
    rw [h.resets]
    omega
  ascending := h.ascending.bump fault.category

theorem reset (h : t.AddsUp ran failures resets) : t.reset.AddsUp ran failures (resets + 1) :=
  ⟨h.ran, h.total, h.errors, congrArg (· + 1) h.resets, h.ascending⟩

theorem tallied (h : t.AddsUp ran failures resets) (o : SerialExecutor.Outcome) :
    (o.tallied t).AddsUp (ran + if o.ran then 1 else 0) (failures + if o.failed then 1 else 0)
      (resets + if o.isReset then 1 else 0) := by
  cases o with
  | executed r =>
    cases r with
    | ok result => exact h.attempted result
    | error fault => exact h.failed fault
  | cacheReset => exact h.reset
  | built _ | waited _ | waitedForLast _ => exact h

end Tally.AddsUp

namespace SerialExecutor

/-- After some operations, the counts add up, and the pipeline still leaves them alone. -/
structure Progress.Accounted (asked : List Operation) (p : Progress σ) : Prop where
  pipeline : p.executor.inner.pipeline.LeavesTally
  counts : p.world.metrics.tally.AddsUp (p.outcomes.countP Outcome.ran)
    (p.outcomes.countP Outcome.failed) (asked.countP Operation.isReset)

variable {asked : List Operation} {p : Progress σ}

theorem Progress.Accounted.next (h : p.Accounted asked) (op : Operation) :
    (p.next op).Accounted (asked ++ [op]) := by
  rcases hperform : p.executor.perform op p.world with ⟨o, e, w⟩
  obtain ⟨hcounted, hreset, hpipeline⟩ := tally_perform h.pipeline hperform
  rw [Progress.next_eq hperform]
  have hcounts := h.counts.tallied o
  rw [← hcounted, hreset] at hcounts
  exact ⟨hpipeline, by simpa only [List.countP_append, List.countP_singleton] using hcounts⟩

theorem Progress.Accounted.run (h : p.Accounted asked) (ops : List Operation) :
    (p.run ops).Accounted (asked ++ ops) := by
  induction ops generalizing p asked with
  | nil =>
    rw [List.append_nil]
    exact h
  | cons op ops ih =>
    rw [List.append_cons]
    exact ih (h.next op)

/-- **Executions are accounted for.** From counters at zero, whatever ledger, lookup and signer answer,
after any run of operations: each time that the ledger was asked is counted as a success, as a failure
that the effects report, as a refusal or as effects that cannot be read; the first two are as many as the
executions that came to effects, and the failures of all categories as many as the executions that failed;
and the cache was emptied once for each of these and once for each request to do so. -/
theorem accounting_run (e : SerialExecutor σ) (w : World σ) (he : e.inner.pipeline.LeavesTally)
    (hw : w.metrics.tally = {}) (ops : List Operation) :
    let p := Progress.run { executor := e, world := w } ops
    let m := p.world.metrics
    let failures := p.outcomes.countP Outcome.failed
    m.executionsTotal = m.executionsSuccess + m.executionsFailedStatus +
        m.submissionErrors.count "submission" + m.submissionErrors.count "effects" ∧
      m.executionsSuccess + m.executionsFailedStatus = p.outcomes.countP Outcome.ran ∧
      (m.submissionErrors.map Prod.snd).sum = failures ∧
      m.cacheResets = failures + ops.countP Operation.isReset := by
  have hstart : Progress.Accounted [] { executor := e, world := w } :=
    ⟨he, by rw [hw]; exact ⟨rfl, rfl, rfl, rfl, List.Pairwise.nil⟩⟩
  have hcounts := (hstart.run ops).counts
  exact ⟨hcounts.total, hcounts.ran, hcounts.errors, hcounts.resets⟩

def effectsWith (status : ExecutionStatus) : Effects :=
  { Effects.ofFee ⟨.zero⟩ ⟨.ofUInt64 5, 1, ⟨.zero⟩⟩ ⟨.zero⟩ (.ofUInt64 1) 2 with status }

/-- An executor whose ledger refuses, then gives what cannot be read, then runs one transaction to success
and the others to a failure; no bytes at all are not signed. -/
def wavering : SerialExecutor Nat where
  inner := {
    ledger := {
      submit := fun _ _ n => ((match n with
        | 0 => .error (.rejected "not now")
        | 1 => .ok ⟨⟨.zero⟩, []⟩
        | 2 => .ok ⟨⟨.zero⟩, (effectsWith .success).encode⟩
        | _ => .ok ⟨⟨.zero⟩, (effectsWith (.failure .insufficientGas none)).encode⟩, 5), n + 1)
      fetch := fun _ _ n => (.ok none, n) }
    lookup := none
    pipeline := .standardWith [] {} .standard }
  signer := ⟨.ofUInt64 1, fun bytes n =>
    (if bytes = [] then .error (.signing "nothing to sign") else .ok ⟨[]⟩, n)⟩
  defaultBudget := 100
  inclusion := {}

/-- Executions that fail in every way and do not fail, among other operations. -/
def mixed : List Operation :=
  [.execute (.bytes [1]), .execute (.bytes [1]), .execute (.bytes [1]), .waitForLast (some 9000),
    .execute (.bytes [1]), .execute (.bytes []), .resetCache, .execute (.transaction {}), .build {}]

theorem accounting_run_mixed :
    let p := Progress.run { executor := wavering, world := ⟨0, {}, 0⟩ } mixed
    let m := p.world.metrics
    let failures := p.outcomes.countP Outcome.failed
    (failures = 4 ∧ m.executionsTotal = 4 ∧ m.executionsSuccess = 1 ∧ m.executionsFailedStatus = 1 ∧
      m.submissionErrors = [("build", 1), ("effects", 1), ("signing", 1), ("submission", 1)] ∧
      m.cacheResets = 5) ∧
    m.executionsTotal = m.executionsSuccess + m.executionsFailedStatus +
        m.submissionErrors.count "submission" + m.submissionErrors.count "effects" ∧
      m.executionsSuccess + m.executionsFailedStatus = p.outcomes.countP Outcome.ran ∧
      (m.submissionErrors.map Prod.snd).sum = failures ∧
      m.cacheResets = failures + mixed.countP Operation.isReset :=
  ⟨by decide +kernel, accounting_run wavering ⟨0, {}, 0⟩ (leavesTally_standardWith [] {}) rfl mixed⟩

end SerialExecutor

end ObjectLedger
