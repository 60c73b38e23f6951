import ObjectLedger.Resolve.Gas
import ObjectLedger.Resolve.Names
import ObjectLedger.Resolve.Objects

/-!
# The pipeline

Stages in order, each completing a part of a transaction. They work on a copy, which takes the place of
the transaction only when every stage has run, or one has called for an early end, and nothing is left
open.
-/

namespace ObjectLedger

/-- What happens after a stage. -/
inductive Flow where
  | proceed
  /-- Skip the stages that are left; the final check still runs. -/
  | stop
  deriving DecidableEq, Repr

/-- A step of resolution. -/
inductive Stage (σ : Type) where
  /-- Names of packages, with what earlier runs learnt. -/
  | namedPackages (memory : NameMemory) (batch : Nat)
  | intents (registry : IntentRegistry σ)
  | objects (batch : Nat)
  | gas (maxCoins : Nat)
  /-- A step of the caller's own. -/
  | custom (name : String)
      (resolve : Transaction → BuildOptions σ → Build σ (Flow × Transaction))

namespace Stage

variable {σ : Type}

def name : Stage σ → String
  | namedPackages .. => "named_packages"
  | intents _ => "intents"
  | objects _ => "objects"
  | gas _ => "gas"
  | custom name _ => name

/-- Runs a stage: what happens next and the transaction, the stage with what it learnt, the world. -/
def run (s : Stage σ) (o : BuildOptions σ) (tx : Transaction) (w : World σ) :
    Except BuildError (Flow × Transaction) × Stage σ × World σ :=
  match s with
  | namedPackages memory batch =>
    let (r, memory, w) := resolveNames batch o memory tx w
    (r.map (.proceed, ·), namedPackages memory batch, w)
  | intents registry =>
    let (r, w) := (resolveIntents registry o tx).exec w
    (r.map (.proceed, ·), s, w)
  | objects batch =>
    let (r, w) := (resolveObjects batch o tx).exec w
    (r.map (.proceed, ·), s, w)
  | gas maxCoins =>
    let (r, w) := (resolveGas maxCoins o tx).exec w
    (r.map (.proceed, ·), s, w)
  | custom _ resolve =>
    let (r, w) := (resolve tx o).exec w
    (r, s, w)

end Stage

/-- Limits of the built-in stages. -/
structure ResolverConfig where
  maxBatchSize : Nat := 50
  maxGasObjects : Nat := 256
  deriving DecidableEq

/-- Stages in order. -/
structure Pipeline (σ : Type) where
  stages : List (Stage σ) := []

namespace Pipeline

variable {σ : Type}

def standard (config : ResolverConfig) (registry : IntentRegistry σ) : Pipeline σ where
  stages := [.namedPackages [] config.maxBatchSize, .intents registry,
    .objects config.maxBatchSize, .gas config.maxGasObjects]

def stageNames (p : Pipeline σ) : List String := p.stages.map Stage.name

def display (p : Pipeline σ) : String :=
  IntentRegistry.displayRecord "Pipeline" "stages" (IntentRegistry.displayList p.stageNames)

/-- Runs stages in order up to a fault or an early end. -/
def runStages (o : BuildOptions σ) : List (Stage σ) → Transaction → World σ →
    Except BuildError Transaction × List (Stage σ) × World σ
  | [], tx, w => (.ok tx, [], w)
  | s :: rest, tx, w =>
    match s.run o tx w with
    | (.error e, s, w) => (.error e, s :: rest, w)
    | (.ok (.stop, tx), s, w) => (.ok tx, s :: rest, w)
    | (.ok (.proceed, tx), s, w) =>
      let (r, rest, w) := runStages o rest tx w
      (r, s :: rest, w)

/-- Resolves a transaction: the completed one or the fault, the pipeline with what it learnt, and the
world. -/
def run (p : Pipeline σ) (o : BuildOptions σ) (tx : Transaction) (w : World σ) :
    Except BuildError Transaction × Pipeline σ × World σ :=
  let w := { w with metrics := { w.metrics with buildsTotal := w.metrics.buildsTotal + 1 } }
  let (r, stages, w) := runStages o p.stages tx w
  match r.bind fun tx => tx.validateResolved.map fun _ => tx with
  | .ok tx =>
    let metrics := { w.metrics with buildLatency := w.metrics.buildLatency.observe .zero }
    (.ok tx, ⟨stages⟩, { w with metrics })
  | .error e => (.error e, ⟨stages⟩, { w with metrics := w.metrics.failBuild e.category })

/-- What a build leaves behind. -/
structure Built (σ : Type) where
  /-- The bytes, or why there are none. -/
  result : Except BuildError (List UInt8)
  /-- The transaction afterwards. -/
  transaction : Transaction
  pipeline : Pipeline σ
  world : World σ

/-- The bytes of a resolved transaction, or of its inputs and commands alone. -/
def encoded (o : BuildOptions σ) (tx : Transaction) : Except BuildError (List UInt8) :=
  (if o.kindOnly then tx.encodeKind else tx.encode).mapError .encode

/-- Resolves a transaction and encodes it. -/
def build (p : Pipeline σ) (o : BuildOptions σ) (tx : Transaction) (w : World σ) : Built σ :=
  match p.run o tx w with
  | (.error e, pipeline, world) => ⟨.error e, tx, pipeline, world⟩
  | (.ok resolved, pipeline, world) => ⟨encoded o resolved, resolved, pipeline, world⟩

end Pipeline

end ObjectLedger
