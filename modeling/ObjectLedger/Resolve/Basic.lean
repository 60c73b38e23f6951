import ObjectLedger.Cache
import ObjectLedger.Metrics
import ObjectLedger.Transaction.Edit

/-!
# Resolution and the world around it

Resolution completes a transaction by asking others. They are known by what they answer from a state of
their own, of any type, which each answer may change. Beside that state the world holds the metrics
and the clock, in milliseconds.
-/

namespace ObjectLedger

/-- The state of the others, the metrics and the clock. -/
structure World (σ : Type) where
  peer : σ
  metrics : Metrics := {}
  clock : Nat := 0

/-- Who answers questions about objects, packages, prices and coins. -/
structure Lookup (σ : Type) where
  /-- One answer for each id, in order; an object that does not exist has none. -/
  objects : List ObjectId → σ → Except ClientError (List (Option ObjectInfo)) × σ
  /-- Addresses of the names that are known. -/
  packages : List String → σ → Except ClientError (List (String × Address)) × σ
  gasPrice : σ → Except ClientError UInt64 × σ
  coins : Address → String → σ → Except ClientError (List CoinInfo) × σ

/-- Who may be asked, and how far a build goes. -/
structure BuildOptions (σ : Type) where
  lookup : Option (Lookup σ) := none
  /-- Objects that need no question. -/
  cache : Option ObjectCache := none
  /-- Stop short of sender and gas. -/
  kindOnly : Bool := false
  /-- The gas budget of a transaction that sets none. -/
  defaultBudget : Option UInt64 := none

def BuildOptions.display {σ : Type} (o : BuildOptions σ) : String :=
  let budget := match o.defaultBudget with
    | none => "None"
    | some n => s!"Some({n})"
  let open_ := "\x7b"
  let close := "\x7d"
  s!"BuildOptions {open_} lookup: {o.lookup.isSome}, cache: {o.cache.isSome}, " ++
    s!"only_transaction_kind: {o.kindOnly}, default_budget: {budget} {close}"

/-- A computation that may fail, and changes the world either way. -/
abbrev Build (σ α : Type) := ExceptT BuildError (StateM (World σ)) α

namespace Build

variable {σ α : Type}

def exec (x : Build σ α) (w : World σ) : Except BuildError α × World σ := (ExceptT.run x).run w

/-- Puts a question to the others. -/
def ask (question : σ → Except ClientError α × σ) : Build σ α :=
  ExceptT.mk fun w =>
    let (answer, peer) := question w.peer
    (answer.mapError .client, { w with peer })

def count (change : Metrics → Metrics) : Build σ Unit :=
  ExceptT.mk fun w => (.ok (), { w with metrics := change w.metrics })

def ofExcept (r : Except BuildError α) : Build σ α := ExceptT.mk fun w => (r, w)

end Build

/-- The lookup, or a fault that names what it is needed for. -/
def BuildOptions.requireLookup {σ : Type} (o : BuildOptions σ) (purpose : String) :
    Build σ (Lookup σ) :=
  match o.lookup with
  | some lookup => pure lookup
  | none => throw (.missingClient purpose)

/-- A list cut into pieces of a size, the last one possibly shorter; the fuel bounds their number. -/
def batchesWithin {α : Type} (size : Nat) : Nat → List α → List (List α)
  | 0, _ => []
  | fuel + 1, xs =>
    if xs.isEmpty then [] else xs.take size :: batchesWithin size fuel (xs.drop size)

/-- A list cut into pieces of a size. -/
def batches {α : Type} (size : Nat) (xs : List α) : List (List α) :=
  batchesWithin (max 1 size) xs.length xs

end ObjectLedger
