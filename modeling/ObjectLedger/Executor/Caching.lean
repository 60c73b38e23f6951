import ObjectLedger.Executor.Inclusion
import ObjectLedger.Resolve.Pipeline

/-!
# Executing with a cache

Transactions are built against the object cache, submitted, and their effects folded back into it.
-/

namespace ObjectLedger

/-- Why a request to an executor failed. -/
inductive ExecutorError where
  | build (fault : BuildError)
  | signing (fault : ClientError)
  /-- The ledger did not take the transaction. -/
  | submission (fault : ClientError)
  /-- The effects cannot be read. -/
  | effects (fault : DecodeError)
  | wait (fault : WaitError)
  deriving DecidableEq

namespace ExecutorError

def message : ExecutorError → String
  | build fault => s!"Build failed: {fault.message}"
  | signing fault => s!"Signing failed: {fault.message}"
  | submission fault => s!"Submission failed: {fault.message}"
  | effects fault => s!"Undecodable effects: {fault.message}"
  | wait fault => fault.message

def category : ExecutorError → String
  | build _ => "build"
  | signing _ => "signing"
  | submission _ => "submission"
  | effects _ => "effects"
  | wait _ => "wait"

def isRetryable : ExecutorError → Bool
  | build fault => fault.isRetryable
  | submission fault => fault.isRetryable
  | signing _ | effects _ | wait _ => false

end ExecutorError

/-- The outcome of a transaction that the ledger ran, whether it succeeded or not. -/
structure ExecutionResult where
  digest : Digest
  effects : Effects
  rawEffects : List UInt8
  deriving DecidableEq

/-- A ledger, a lookup, a pipeline and the cache between them. -/
structure CachingExecutor (σ : Type) where
  ledger : Ledger σ
  lookup : Option (Lookup σ)
  pipeline : Pipeline σ
  cache : ObjectCache := {}

namespace CachingExecutor

variable {σ : Type}

/-- The options that let a build use the lookup and the cache. -/
def buildOptions (e : CachingExecutor σ) (defaultBudget : Option UInt64) : BuildOptions σ where
  lookup := e.lookup
  cache := some e.cache
  kindOnly := false
  defaultBudget

def build (e : CachingExecutor σ) (o : BuildOptions σ) (tx : Transaction) (w : World σ) :
    Except BuildError (List UInt8) × CachingExecutor σ × World σ :=
  let built := e.pipeline.build o tx w
  (built.result, { e with pipeline := built.pipeline }, built.world)

def applyEffects (e : CachingExecutor σ) (effects : Effects) (owner : Address) (w : World σ) :
    CachingExecutor σ × World σ :=
  let cache := e.cache.applyEffects effects owner
  ({ e with cache }, { w with metrics := { w.metrics with cacheEntries := cache.size } })

/-- Empties the cache. -/
def reset (e : CachingExecutor σ) (w : World σ) : CachingExecutor σ × World σ :=
  ({ e with cache := {} },
   { w with metrics := { w.metrics with cacheEntries := 0, cacheResets := w.metrics.cacheResets + 1 } })

/-- Counts an execution by its status. -/
def countStatus (m : Metrics) (success : Bool) : Metrics :=
  if success then { m with executionsSuccess := m.executionsSuccess + 1 }
  else { m with executionsFailedStatus := m.executionsFailedStatus + 1 }

/-- Submits signed bytes and folds the effects into the cache for an owner. -/
def execute (e : CachingExecutor σ) (bytes : List UInt8) (signatures : List UserSignature)
    (owner : Address) (w : World σ) :
    Except ExecutorError ExecutionResult × CachingExecutor σ × World σ :=
  let ((answer, elapsed), peer) := e.ledger.submit bytes signatures w.peer
  let metrics := { w.metrics with executionsTotal := w.metrics.executionsTotal + 1 }
  let w := { peer, metrics, clock := w.clock + elapsed : World σ }
  match answer with
  | .error fault => (.error (.submission fault), e, w)
  | .ok response =>
    match Effects.decode response.effects with
    | .error fault => (.error (.effects fault), e, w)
    | .ok effects =>
      let (e, w) := e.applyEffects effects owner w
      let metrics := countStatus w.metrics effects.status.isSuccess
      let metrics := { metrics with executeLatency :=
        metrics.executeLatency.observe (Double.ofRatio false elapsed 1000) }
      (.ok ⟨response.digest, effects, response.effects⟩, e, { w with metrics })

end CachingExecutor

end ObjectLedger
