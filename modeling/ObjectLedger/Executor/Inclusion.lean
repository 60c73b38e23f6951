import ObjectLedger.Effects.Codec
import ObjectLedger.Resolve.Basic

/-!
# Waiting for inclusion

The ledger is asked for the effects of a transaction until it has them, the caller cancels, or the time
is up. After an answer of not yet the next question waits one interval; after consecutive failures the
wait doubles each time up to a limit.
-/

namespace ObjectLedger

/-- Who takes transactions and hands out effects. -/
structure Ledger (σ : Type) where
  /-- Runs signed bytes: the answer, the milliseconds it took, and the state afterwards. -/
  submit : List UInt8 → List UserSignature → σ → (Except ClientError SubmitResponse × Nat) × σ
  /-- The effects of a transaction at a time of the clock, if they are known. -/
  fetch : Digest → Nat → σ → Except ClientError (Option (List UInt8)) × σ

/-- How long to wait, and how often to ask. -/
structure InclusionConfig where
  timeoutMs : UInt64 := 60000
  pollIntervalMs : UInt64 := 2000
  maxBackoffMs : UInt64 := 10000
  jitterFactor : Double := Double.ofRatio false 1 10
  deriving DecidableEq

/-- The nearest number of at most 53 significant bits, a tie going to the even one. -/
def nearest53 (n : Nat) : Nat :=
  if n < 1 <<< 53 then n
  else
    let k := n.log2 - 52
    Double.roundScaled n (1 <<< k) 0 <<< k

/-- Delays that double from a base up to a limit, which is not below the base. -/
structure Backoff where
  base : Nat
  limit : Nat
  deriving DecidableEq, Repr

namespace Backoff

def between (base maximum : Nat) : Backoff := ⟨base, max maximum base⟩

def ofConfig (c : InclusionConfig) : Backoff :=
  between c.pollIntervalMs.toNat c.maxBackoffMs.toNat

/-- The delay in milliseconds after a number of failures: the base doubled as often, thirty times at
most, and capped, with the bounds rounded to 53 bits and the whole to 64. -/
def delay (b : Backoff) (failures : Nat) : Nat :=
  min (min (nearest53 b.base <<< min failures 30) (nearest53 b.limit)) (UInt64.size - 1)

end Backoff

/-- Why a wait ended without effects. -/
inductive WaitError where
  | cancelled
  | timeout (digest : Digest) (afterMs : UInt64)
  /-- The effects cannot be read. -/
  | decode (fault : DecodeError)
  deriving DecidableEq

def WaitError.message : WaitError → String
  | cancelled => "Inclusion wait cancelled"
  | timeout digest afterMs => s!"Transaction {digest} not found after {afterMs} ms"
  | decode fault => s!"Undecodable effects: {fault.message}"

/-- The effects of a transaction that the ledger has. -/
structure Included where
  digest : Digest
  status : StatusSummary
  effects : List UInt8
  deriving DecidableEq

/-- Effects whose status can be read. -/
def Included.ofEffects (digest : Digest) (effects : List UInt8) : Except WaitError Included :=
  match statusOf effects with
  | .ok status => .ok ⟨digest, status, effects⟩
  | .error fault => .error (.decode fault)

namespace Inclusion

variable {σ : Type}

/-- What a wait is about and when it ends. -/
structure Wait (σ : Type) where
  ledger : Ledger σ
  digest : Digest
  backoff : Backoff
  timeoutMs : UInt64
  /-- The time of the clock at which the time is up. -/
  deadline : Nat
  /-- The time of the clock at which the caller cancels. -/
  cancelAt : Option Nat

/-- The end of a wait whose time is up. -/
def timedOut (t : Wait σ) (w : World σ) : Except WaitError Included × World σ :=
  (.error (.timeout t.digest t.timeoutMs), { w with clock := t.deadline })

/-- Asks now, and again after each wait; the fuel bounds the number of questions. -/
def pollFrom (t : Wait σ) : Nat → Nat → World σ → Except WaitError Included × World σ
  | 0, _, w => timedOut t w
  | fuel + 1, failures, w =>
    if t.cancelAt.any (· ≤ w.clock) then (.error .cancelled, w)
    else
      let (answer, peer) := t.ledger.fetch t.digest w.clock w.peer
      let asked := { w.metrics with inclusionPolls := w.metrics.inclusionPolls + 1 }
      match answer with
      | .ok (some effects) => (Included.ofEffects t.digest effects, { w with peer, metrics := asked })
      | indecisive =>
        let (failures, metrics) := match indecisive with
          | .ok _ => (0, asked)
          | .error _ =>
            (failures + 1, { asked with inclusionPollErrors := asked.inclusionPollErrors + 1 })
        let wake := w.clock + t.backoff.delay failures
        let w := { w with peer, metrics }
        match t.cancelAt.filter fun c => decide (c ≤ min wake t.deadline) with
        | some c => (.error .cancelled, { w with clock := c })
        | none =>
          if wake ≤ t.deadline then pollFrom t fuel failures { w with clock := wake }
          else timedOut t w

/-- Waits for the effects of a transaction; the caller cancels at a time of the clock, if at all. -/
def waitFor (ledger : Ledger σ) (digest : Digest) (config : InclusionConfig) (cancelAt : Option Nat)
    (w : World σ) : Except WaitError Included × World σ :=
  let t : Wait σ := { ledger, digest, backoff := .ofConfig config, timeoutMs := config.timeoutMs
                      deadline := w.clock + config.timeoutMs.toNat, cancelAt }
  let started := w.clock
  match pollFrom t (config.timeoutMs.toNat + 1) 0 w with
  | (.error e, w) => (.error e, w)
  | (.ok found, w) =>
    let waited := Double.ofRatio false (w.clock - started) 1000
    let metrics := { w.metrics with inclusionWait := w.metrics.inclusionWait.observe waited }
    (.ok found, { w with metrics })

end Inclusion

end ObjectLedger
