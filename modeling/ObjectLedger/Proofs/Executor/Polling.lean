import Mathlib.Algebra.Group.Nat.Defs
import ObjectLedger.Executor.Inclusion

/-!
# The schedule of a wait

When a wait for inclusion asks its questions, as a function of the answers alone: the first question at once,
each further one after a pause that depends on how many questions in a row have failed. A wait without jitter
asks at these times, until an answer decides or the next question would be late.
-/

namespace ObjectLedger

/-- Intervals that make delays exact: without jitter, which `Backoff.delay` leaves out, and within 53
bits. -/
structure InclusionConfig.IsExact (config : InclusionConfig) : Prop where
  jitter : config.jitterFactor.le .zero = true
  poll_pos : 0 < config.pollIntervalMs.toNat
  poll_lt : config.pollIntervalMs.toNat < 2 ^ 53
  maxBackoff_lt : config.maxBackoffMs.toNat < 2 ^ 53

namespace Inclusion

/-- What the ledger says to a question: a failure, not yet, or effects. -/
abbrev Answer : Type := Except ClientError (Option (List UInt8))

/-- An answer after which a wait goes on. -/
def Answer.IsIndecisive (answer : Answer) : Prop := ∀ effects, answer ≠ .ok (some effects)

theorem Answer.isIndecisive_or (answer : Answer) :
    answer.IsIndecisive ∨ ∃ effects, answer = .ok (some effects) := by
  rcases answer with fault | _ | effects
  · exact .inl nofun
  · exact .inl nofun
  · exact .inr ⟨effects, rfl⟩

/-! ### The schedule -/

/-- How many questions in a row have failed after one more answer. -/
def failuresAfter (failures : Nat) : Answer → Nat
  | .ok _ => 0
  | .error _ => failures + 1

/-- How many questions in a row have failed just before a question. -/
def failures (answers : Nat → Answer) : Nat → Nat
  | 0 => 0
  | n + 1 => failuresAfter (failures answers n) (answers n)

/-- The pause after a number of failures in a row; none of them means that the answer was not yet. -/
def pause (config : InclusionConfig) (failures : Nat) : Nat :=
  if failures = 0 then config.pollIntervalMs.toNat
  else min (config.pollIntervalMs.toNat * 2 ^ min failures 30)
    (max config.maxBackoffMs.toNat config.pollIntervalMs.toNat)

/-- When a question is asked, from the start of the wait. -/
def pollTime (config : InclusionConfig) (answers : Nat → Answer) : Nat → Nat
  | 0 => 0
  | n + 1 => pollTime config answers n + pause config (failures answers (n + 1))

section

variable (config : InclusionConfig) (answers : Nat → Answer)

theorem pollInterval_le_pause (failures : Nat) :
    config.pollIntervalMs.toNat ≤ pause config failures := by
  unfold pause
  split
  · exact Nat.le_refl _
  · have hdouble : config.pollIntervalMs.toNat ≤ config.pollIntervalMs.toNat * 2 ^ min failures 30 :=
      Nat.le_mul_of_pos_right _ (Nat.two_pow_pos _)
    omega

theorem pollTime_mono {m n : Nat} (h : m ≤ n) : pollTime config answers m ≤ pollTime config answers n := by
  induction h with
  | refl => exact Nat.le_refl _
  | step _ ih => exact Nat.le_trans ih (Nat.le_add_right _ _)

theorem mul_le_pollTime (n : Nat) : n * config.pollIntervalMs.toNat ≤ pollTime config answers n := by
  induction n with
  | zero => simp
  | succ n ih =>
    rw [Nat.succ_mul, pollTime]
    exact Nat.add_le_add ih (pollInterval_le_pause config _)

end

theorem nearest53_eq_self {n : Nat} (h : n < 2 ^ 53) : nearest53 n = n := by
  rw [nearest53, Nat.one_shiftLeft, if_pos h]

theorem delay_ofConfig {config : InclusionConfig} (h : config.IsExact) (failures : Nat) :
    (Backoff.ofConfig config).delay failures = pause config failures := by
  have hlimit : max config.maxBackoffMs.toNat config.pollIntervalMs.toNat < 2 ^ 53 :=
    Nat.max_lt.mpr ⟨h.maxBackoff_lt, h.poll_lt⟩
  have hsize : (2 : Nat) ^ 53 ≤ UInt64.size - 1 := by decide
  have hdelay : (Backoff.ofConfig config).delay failures =
      min (config.pollIntervalMs.toNat * 2 ^ min failures 30)
        (max config.maxBackoffMs.toNat config.pollIntervalMs.toNat) := by
    simp only [Backoff.delay, Backoff.ofConfig, Backoff.between]
    rw [nearest53_eq_self h.poll_lt, nearest53_eq_self hlimit, Nat.shiftLeft_eq]
    omega
  rw [hdelay, pause]
  split
  · rename_i hzero
    rw [hzero, Nat.zero_min, Nat.pow_zero, Nat.mul_one, Nat.min_eq_left (Nat.le_max_right _ _)]
  · rfl

/-! ### One question -/

section

variable {σ : Type} {t : Wait σ} {w : World σ} {peer : σ}

theorem pollFrom_of_effects {effects : List UInt8} (fuel count : Nat) (hcancel : t.cancelAt = none)
    (hfetch : t.ledger.fetch t.digest w.clock w.peer = (.ok (some effects), peer)) :
    ∃ w', pollFrom t (fuel + 1) count w = (Included.ofEffects t.digest effects, w') ∧
      w'.clock = w.clock ∧ w'.peer = peer ∧
      w'.metrics.inclusionPolls = w.metrics.inclusionPolls + 1 := by
  rw [pollFrom]
  simp only [hcancel, hfetch, Option.any_none]
  exact ⟨_, rfl, rfl, rfl, rfl⟩

theorem pollFrom_of_isIndecisive {answer : Answer} (fuel count : Nat) (hcancel : t.cancelAt = none)
    (hfetch : t.ledger.fetch t.digest w.clock w.peer = (answer, peer)) (hanswer : answer.IsIndecisive) :
    ∃ w', pollFrom t (fuel + 1) count w =
        (if w.clock + t.backoff.delay (failuresAfter count answer) ≤ t.deadline then
          pollFrom t fuel (failuresAfter count answer)
            { w' with clock := w.clock + t.backoff.delay (failuresAfter count answer) }
        else timedOut t w') ∧
      w'.peer = peer ∧ w'.metrics.inclusionPolls = w.metrics.inclusionPolls + 1 := by
  rw [pollFrom]
  simp only [hcancel, hfetch, Option.any_none]
  rcases answer with fault | effects
  · exact ⟨_, rfl, rfl, rfl⟩
  · cases effects with
    | none => exact ⟨_, rfl, rfl, rfl⟩
    | some effects => exact absurd rfl (hanswer effects)

end

/-! ### A whole wait -/

/-- A ledger gives these answers to questions at these times, going through these states. -/
def Answers {σ : Type} (ledger : Ledger σ) (digest : Digest) (times : Nat → Nat)
    (answers : Nat → Answer) (states : Nat → σ) : Prop :=
  ∀ n, ledger.fetch digest (times n) (states n) = (answers n, states (n + 1))

section

variable {σ : Type} {t : Wait σ} {config : InclusionConfig} {start polls : Nat}
  {answers : Nat → Answer} {states : Nat → σ}

/-- A wait that nobody cancels, by a configuration and from a time on, with answers as scheduled. -/
structure Follows (t : Wait σ) (config : InclusionConfig) (start : Nat) (answers : Nat → Answer)
    (states : Nat → σ) : Prop where
  cancelAt : t.cancelAt = none
  backoff : t.backoff = .ofConfig config
  deadline : t.deadline = start + config.timeoutMs.toNat
  answers : Answers t.ledger t.digest (fun n => start + pollTime config answers n) answers states

/-- Just before a question that is asked. -/
structure Reached (config : InclusionConfig) (start polls : Nat) (answers : Nat → Answer)
    (states : Nat → σ) (n : Nat) (w : World σ) : Prop where
  clock : w.clock = start + pollTime config answers n
  peer : w.peer = states n
  polls : w.metrics.inclusionPolls = polls + n
  inTime : pollTime config answers n ≤ config.timeoutMs.toNat
  indecisive : ∀ j < n, (answers j).IsIndecisive

/-- The end of a wait with its last question: the answer has effects, or the next question would be late. -/
structure Ended (t : Wait σ) (config : InclusionConfig) (start polls : Nat) (answers : Nat → Answer)
    (states : Nat → σ) (last : Nat) (r : Except WaitError Included × World σ) : Prop where
  inTime : pollTime config answers last ≤ config.timeoutMs.toNat
  indecisive : ∀ j < last, (answers j).IsIndecisive
  peer : r.2.peer = states (last + 1)
  polls : r.2.metrics.inclusionPolls = polls + (last + 1)
  result : (∃ effects, answers last = .ok (some effects) ∧ r.1 = Included.ofEffects t.digest effects ∧
      r.2.clock = start + pollTime config answers last) ∨
    ((answers last).IsIndecisive ∧ config.timeoutMs.toNat < pollTime config answers (last + 1) ∧
      r.1 = .error (.timeout t.digest t.timeoutMs) ∧ r.2.clock = start + config.timeoutMs.toNat)

theorem Follows.step (h : Follows t config start answers states) (hconfig : config.IsExact) {n : Nat}
    {w : World σ} (hw : Reached config start polls answers states n w) (fuel : Nat) :
    Ended t config start polls answers states n (pollFrom t (fuel + 1) (failures answers n) w) ∨
      ∃ w', Reached config start polls answers states (n + 1) w' ∧
        pollFrom t (fuel + 1) (failures answers n) w = pollFrom t fuel (failures answers (n + 1)) w' := by
  have hfetch : t.ledger.fetch t.digest w.clock w.peer = (answers n, states (n + 1)) := by
    rw [hw.clock, hw.peer]
    exact h.answers n
  rcases (answers n).isIndecisive_or with hanswer | ⟨effects, heffects⟩
  · obtain ⟨w', hrun, hpeer, hpolls⟩ :=
      pollFrom_of_isIndecisive fuel (failures answers n) h.cancelAt hfetch hanswer
    have hwake : w.clock + t.backoff.delay (failuresAfter (failures answers n) (answers n)) =
        start + pollTime config answers (n + 1) := by
      rw [h.backoff, delay_ofConfig hconfig, hw.clock, Nat.add_assoc]
      rfl
    rw [hwake, h.deadline] at hrun
    have hbefore : ∀ j < n + 1, (answers j).IsIndecisive := by
      intro j hj
      rcases Nat.lt_succ_iff_lt_or_eq.mp hj with hj | rfl
      · exact hw.indecisive j hj
      · exact hanswer
    by_cases htime : pollTime config answers (n + 1) ≤ config.timeoutMs.toNat
    · right
      rw [if_pos (Nat.add_le_add_left htime start)] at hrun
      refine ⟨{ w' with clock := start + pollTime config answers (n + 1) },
        ⟨rfl, hpeer, ?_, htime, hbefore⟩, hrun⟩
      rw [hpolls, hw.polls, Nat.add_assoc]
    · left
      rw [if_neg (by omega)] at hrun
      rw [hrun]
      refine ⟨hw.inTime, hw.indecisive, hpeer, ?_, .inr ⟨hanswer, by omega, rfl, h.deadline⟩⟩
      rw [timedOut, hpolls, hw.polls, Nat.add_assoc]
  · left
    rw [heffects] at hfetch
    obtain ⟨w', hrun, hclock, hpeer, hpolls⟩ :=
      pollFrom_of_effects fuel (failures answers n) h.cancelAt hfetch
    rw [hrun]
    refine ⟨hw.inTime, hw.indecisive, hpeer, ?_, .inl ⟨effects, heffects, rfl, hclock.trans hw.clock⟩⟩
    rw [hpolls, hw.polls, Nat.add_assoc]

/-- As each pause takes time, the time that is left is fuel enough. -/
theorem Follows.exists_ended (h : Follows t config start answers states) (hconfig : config.IsExact)
    {fuel n : Nat} {w : World σ} (hw : Reached config start polls answers states n w)
    (hfuel : config.timeoutMs.toNat < fuel + pollTime config answers n) :
    ∃ last, Ended t config start polls answers states last (pollFrom t fuel (failures answers n) w) := by
  induction fuel generalizing n w with
  | zero =>
    have htime := hw.inTime
    omega
  | succ fuel ih =>
    rcases h.step hconfig hw fuel with hended | ⟨w', hw', hrun⟩
    · exact ⟨n, hended⟩
    · have hpause : config.pollIntervalMs.toNat ≤ pause config (failures answers (n + 1)) :=
        pollInterval_le_pause config _
      have hpos := hconfig.poll_pos
      rw [hrun]
      refine ih hw' ?_
      rw [pollTime]
      omega

/-! ### What the end of a wait tells -/

variable {last : Nat} {r : Except WaitError Included × World σ}

theorem Ended.lt_iff (h : Ended t config start polls answers states last r) (n : Nat) :
    n < last + 1 ↔
      pollTime config answers n ≤ config.timeoutMs.toNat ∧ ∀ j < n, (answers j).IsIndecisive := by
  constructor
  · intro hn
    have hle : n ≤ last := Nat.le_of_lt_succ hn
    exact ⟨Nat.le_trans (pollTime_mono config answers hle) h.inTime, fun j hj => h.indecisive j (by omega)⟩
  · rintro ⟨htime, hbefore⟩
    rcases Nat.lt_or_ge n (last + 1) with hn | hle
    · exact hn
    -- The last question is among those before, so it is the time that ends the wait.
    rcases h.result with ⟨effects, heffects, -⟩ | ⟨-, hlate, -⟩
    · exact absurd heffects (hbefore last hle effects)
    · have hmono := pollTime_mono config answers hle
      omega

theorem Ended.last_le (h : Ended t config start polls answers states last r)
    (hpos : 0 < config.pollIntervalMs.toNat) :
    last ≤ config.timeoutMs.toNat / config.pollIntervalMs.toNat := by
  rw [Nat.le_div_iff_mul_le hpos]
  exact Nat.le_trans (mul_le_pollTime config answers last) h.inTime

theorem Ended.of_effects (h : Ended t config start polls answers states last r) {n : Nat}
    {effects : List UInt8} (htime : pollTime config answers n ≤ config.timeoutMs.toNat)
    (hbefore : ∀ j < n, (answers j).IsIndecisive) (heffects : answers n = .ok (some effects)) :
    r.1 = Included.ofEffects t.digest effects ∧ r.2.clock = start + pollTime config answers n := by
  have hle : n ≤ last := Nat.le_of_lt_succ ((h.lt_iff n).mpr ⟨htime, hbefore⟩)
  have heq : n = last := by
    rcases Nat.lt_or_eq_of_le hle with hlt | heq
    · exact absurd heffects (h.indecisive n hlt effects)
    · exact heq
  subst heq
  rcases h.result with ⟨effects', heffects', hresult, hclock⟩ | ⟨hanswer, -⟩
  · rw [heffects] at heffects'
    cases heffects'
    exact ⟨hresult, hclock⟩
  · exact absurd heffects (hanswer effects)

theorem Ended.of_isIndecisive (h : Ended t config start polls answers states last r)
    (hall : ∀ n, pollTime config answers n ≤ config.timeoutMs.toNat → (answers n).IsIndecisive) :
    r.1 = .error (.timeout t.digest t.timeoutMs) ∧ r.2.clock = start + config.timeoutMs.toNat := by
  rcases h.result with ⟨effects, heffects, -⟩ | ⟨-, -, hresult⟩
  · exact absurd heffects (hall last h.inTime effects)
  · exact hresult

end

/-! ### A script of answers -/

/-- A ledger that answers from a script and keeps the times at which it was asked. -/
def scripted (answers : Nat → Answer) : Ledger (List Nat) where
  submit _ _ times := ((.error (.rejected "scripted"), 0), times)
  fetch _ now times := (answers times.length, times ++ [now])

theorem answers_scripted (digest : Digest) (times : Nat → Nat) (answers : Nat → Answer) :
    Answers (scripted answers) digest times answers fun n => (List.range n).map times := by
  intro n
  simp [scripted, List.range_succ]

/-! ### Waits by a configuration -/

/-- The wait of a configuration, which nobody cancels. -/
def uncancelled {σ : Type} (ledger : Ledger σ) (digest : Digest) (config : InclusionConfig) (start : Nat) :
    Wait σ where
  ledger := ledger
  digest := digest
  backoff := .ofConfig config
  timeoutMs := config.timeoutMs
  deadline := start + config.timeoutMs.toNat
  cancelAt := none

section

variable {σ : Type} {ledger : Ledger σ} {digest : Digest} {config : InclusionConfig} {w : World σ}
  {answers : Nat → Answer} {states : Nat → σ}

theorem exists_ended_waitFor (hconfig : config.IsExact) (hstart : states 0 = w.peer)
    (hanswers : Answers ledger digest (fun n => w.clock + pollTime config answers n) answers states) :
    ∃ last, Ended (uncancelled ledger digest config w.clock) config w.clock w.metrics.inclusionPolls
      answers states last (waitFor ledger digest config none w) := by
  have hfollows : Follows (uncancelled ledger digest config w.clock) config w.clock answers states :=
    ⟨rfl, rfl, rfl, hanswers⟩
  have hreached : Reached config w.clock w.metrics.inclusionPolls answers states 0 w :=
    ⟨rfl, hstart.symm, rfl, Nat.zero_le _, fun j hj => absurd hj (Nat.not_lt_zero j)⟩
  obtain ⟨last, hended⟩ : ∃ last, Ended (uncancelled ledger digest config w.clock) config w.clock
      w.metrics.inclusionPolls answers states last
      (pollFrom (uncancelled ledger digest config w.clock) (config.timeoutMs.toNat + 1) 0 w) :=
    hfollows.exists_ended hconfig hreached (by omega)
  refine ⟨last, ?_⟩
  rcases hpolled : pollFrom (uncancelled ledger digest config w.clock) (config.timeoutMs.toNat + 1) 0 w
    with ⟨fault | found, w'⟩
  · rw [hpolled] at hended
    unfold uncancelled at hpolled
    simp only [waitFor, hpolled]
    exact hended
  · rw [hpolled] at hended
    unfold uncancelled at hpolled
    simp only [waitFor, hpolled]
    exact ⟨hended.inTime, hended.indecisive, hended.peer, hended.polls, hended.result⟩

/-- **A wait asks as scheduled until an answer has effects or the time is up.** Whatever the ledger answers,
it is asked at the times that its answers make, in order, and at no others. The first answer with effects
that comes in time decides the result, and where none comes in time the wait runs out; failures decide
nothing but the times. -/
theorem polls_of_waitFor (hconfig : config.IsExact) (hstart : states 0 = w.peer)
    (hanswers : Answers ledger digest (fun n => w.clock + pollTime config answers n) answers states) :
    ∃ count, count ≤ config.timeoutMs.toNat / config.pollIntervalMs.toNat + 1 ∧
      (∀ n, n < count ↔
        pollTime config answers n ≤ config.timeoutMs.toNat ∧ ∀ j < n, (answers j).IsIndecisive) ∧
      (waitFor ledger digest config none w).2.peer = states count ∧
      (waitFor ledger digest config none w).2.metrics.inclusionPolls = w.metrics.inclusionPolls + count ∧
      (∀ n effects, pollTime config answers n ≤ config.timeoutMs.toNat →
        (∀ j < n, (answers j).IsIndecisive) → answers n = .ok (some effects) →
        (waitFor ledger digest config none w).1 =
            ((statusOf effects).map (⟨digest, ·, effects⟩)).mapError .decode ∧
          (waitFor ledger digest config none w).2.clock = w.clock + pollTime config answers n) ∧
      ((∀ n, pollTime config answers n ≤ config.timeoutMs.toNat → (answers n).IsIndecisive) →
        (waitFor ledger digest config none w).1 = .error (.timeout digest config.timeoutMs) ∧
          (waitFor ledger digest config none w).2.clock = w.clock + config.timeoutMs.toNat) := by
  obtain ⟨last, hended⟩ := exists_ended_waitFor hconfig hstart hanswers
  have hlast := hended.last_le hconfig.poll_pos
  refine ⟨last + 1, by omega, hended.lt_iff, hended.peer, hended.polls, ?_, hended.of_isIndecisive⟩
  intro n effects htime hbefore heffects
  obtain ⟨hresult, hclock⟩ := hended.of_effects htime hbefore heffects
  refine ⟨hresult.trans ?_, hclock⟩
  rw [Included.ofEffects]
  rcases statusOf effects with fault | status <;> rfl

end

def interrupted : Nat → Answer
  | 0 | 1 => .error (.transport "reset")
  | 2 => .ok none
  | _ => .ok (some [0, 0])

/-- Ten seconds, with questions every tenth of one and up to a second between them. -/
def hasty : InclusionConfig := ⟨10000, 100, 1000, .zero⟩

theorem waitFor_interrupted :
    hasty.IsExact ∧
      (waitFor (scripted interrupted) ⟨.zero⟩ hasty none ⟨[], {}, 0⟩).1 =
        .ok ⟨⟨.zero⟩, ⟨true, none⟩, [0, 0]⟩ ∧
      (waitFor (scripted interrupted) ⟨.zero⟩ hasty none ⟨[], {}, 0⟩).2.peer = [0, 200, 600, 700] := by
  have hconfig : hasty.IsExact := ⟨by decide, by decide, by decide, by decide⟩
  have hbefore : ∀ j < 3, (interrupted j).IsIndecisive := by
    intro j hj
    match j, hj with
    | 0, _ | 1, _ | 2, _ => exact nofun
  have htime : pollTime hasty interrupted 3 ≤ hasty.timeoutMs.toNat := by decide
  obtain ⟨count, -, hcount, hpeer, -, heffects, -⟩ := @polls_of_waitFor _ (scripted interrupted) ⟨.zero⟩
    hasty ⟨[], {}, 0⟩ interrupted _ hconfig rfl (answers_scripted _ _ _)
  obtain ⟨hresult, -⟩ := heffects 3 [0, 0] htime hbefore rfl
  have hfour : count = 4 := by
    have hmore : 3 < count := (hcount 3).mpr ⟨htime, hbefore⟩
    have hlast : ¬ 4 < count := fun h => ((hcount 4).mp h).2 3 (by decide) [0, 0] rfl
    omega
  rw [hfour] at hpeer
  exact ⟨hconfig, hresult, hpeer⟩

end Inclusion

end ObjectLedger
