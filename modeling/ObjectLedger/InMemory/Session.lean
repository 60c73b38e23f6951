import ObjectLedger.InMemory.Recorded

/-!
# Sessions

A recorded ledger, an executor over it, and a pipeline for builds that bypass the executor's queue. The
two may share one pipeline, and then one learns the names that the other looked up.
-/

namespace ObjectLedger

/-- A world with an executor in it. -/
structure Session where
  world : World Recorded := { peer := {} }
  executor : SerialExecutor Recorded
  /-- The pipeline of direct builds, where it is not the executor's. -/
  separate : Option (Pipeline Recorded) := none

namespace Session

/-- The pipeline of direct builds. -/
def pipeline (s : Session) : Pipeline Recorded := s.separate.getD s.executor.inner.pipeline

/-- The session with another pipeline for direct builds. -/
def withPipeline (s : Session) (pipeline : Pipeline Recorded) : Session :=
  match s.separate with
  | some _ => { s with separate := some pipeline }
  | none =>
    { s with executor := { s.executor with inner := { s.executor.inner with pipeline } } }

def cache (s : Session) : ObjectCache := s.executor.inner.cache

def withCache (s : Session) (cache : ObjectCache) : Session :=
  { s with executor := { s.executor with inner := { s.executor.inner with cache } } }

def countEntries (s : Session) : Session :=
  let metrics := { s.world.metrics with cacheEntries := s.cache.size }
  { s with world := { s.world with metrics } }

def mapRecord (f : Recorded → Recorded) (s : Session) : Session :=
  { s with world := { s.world with peer := f s.world.peer } }

def mapLedger (f : InMemory → InMemory) (s : Session) : Session :=
  s.mapRecord fun r => { r with ledger := f r.ledger }

def ledger (s : Session) : InMemory := s.world.peer.ledger

/-- The calls made since they were last taken, in order. -/
def takeCalls (s : Session) : List Call × Session :=
  (s.world.peer.calls.reverse, s.mapRecord fun r => { r with calls := [] })

/-- Resolves a transaction without the queue. -/
def resolve (s : Session) (o : BuildOptions Recorded) (tx : Transaction) :
    Except BuildError Transaction × Session :=
  let (r, pipeline, world) := s.pipeline.run o tx s.world
  (r, { s.withPipeline pipeline with world })

/-- Builds a transaction without the queue: the bytes or the fault, and the transaction afterwards. -/
def build (s : Session) (o : BuildOptions Recorded) (tx : Transaction) :
    Except BuildError (List UInt8) × Transaction × Session :=
  let built := s.pipeline.build o tx s.world
  (built.result, built.transaction, { s.withPipeline built.pipeline with world := built.world })

def perform {α : Type} (s : Session)
    (action : SerialExecutor Recorded → World Recorded →
      α × SerialExecutor Recorded × World Recorded) : α × Session :=
  let (r, executor, world) := action s.executor s.world
  (r, { s with executor, world })

/-- An action of the executor's inner part. -/
def performInner {α : Type} (s : Session)
    (action : CachingExecutor Recorded → World Recorded →
      α × CachingExecutor Recorded × World Recorded) : α × Session :=
  let (r, inner, world) := action s.executor.inner s.world
  (r, { s with executor := { s.executor with inner }, world })

/-- A wait, which leaves the executor alone. -/
def await {α : Type} (s : Session)
    (wait : SerialExecutor Recorded → World Recorded → α × World Recorded) : α × Session :=
  let (r, world) := wait s.executor s.world
  (r, { s with world })

/-- What each count grew by, where it grew. -/
def growth (before after : Metrics) : List (String × Nat) :=
  after.counts.filterMap fun entry =>
    let old := (before.counts.lookup entry.1).getD 0
    if old < entry.2 then some (entry.1, entry.2 - old) else none

end Session

end ObjectLedger
