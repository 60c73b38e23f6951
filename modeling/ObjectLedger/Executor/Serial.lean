import ObjectLedger.Executor.Caching

/-!
# One sender's queue

Requests run one after the other, each seeing the cache as the one before left it, so that every
transaction pays with the coin that the last one gave back. A request to execute that fails empties the
cache, because the coin in it may be spent.
-/

namespace ObjectLedger

/-- Who signs. -/
structure Signer (σ : Type) where
  address : Address
  sign : List UInt8 → σ → Except ClientError UserSignature × σ

/-- What is to be executed. -/
inductive ExecuteRequest where
  /-- Built when its turn comes. -/
  | transaction (tx : Transaction)
  /-- Already encoded. -/
  | bytes (bytes : List UInt8)
  deriving DecidableEq

/-- An executor for one sender. -/
structure SerialExecutor (σ : Type) where
  inner : CachingExecutor σ
  signer : Signer σ
  defaultBudget : UInt64
  inclusion : InclusionConfig
  /-- The last transaction that the ledger ran for this executor. -/
  lastDigest : Option Digest := none

namespace SerialExecutor

variable {σ : Type}

/-- A transaction with the sender, the budget and the cached coin filled in where they are open and the
sender pays. -/
def prepare (e : SerialExecutor σ) (tx : Transaction) : Transaction :=
  let sender := e.signer.address
  let tx := (tx.withDefaultSender sender).withDefaultBudget e.defaultBudget
  if tx.gasOwner = some sender ∧ tx.gas.payment = none then
    match e.inner.cache.feeObject with
    | some fee => tx.withPayment [fee]
    | none => tx
  else tx

def build (e : SerialExecutor σ) (tx : Transaction) (w : World σ) :
    Except ExecutorError (List UInt8) × SerialExecutor σ × World σ :=
  let (r, inner, w) := e.inner.build (e.inner.buildOptions (some e.defaultBudget)) (e.prepare tx) w
  (r.mapError .build, { e with inner }, w)

/-- The bytes of a request. -/
def requestBytes (e : SerialExecutor σ) (request : ExecuteRequest) (w : World σ) :
    Except ExecutorError (List UInt8) × SerialExecutor σ × World σ :=
  match request with
  | .transaction tx => e.build tx w
  | .bytes bytes => (.ok bytes, e, w)

/-- Builds if needed, signs and submits. -/
def attempt (e : SerialExecutor σ) (request : ExecuteRequest) (w : World σ) :
    Except ExecutorError ExecutionResult × SerialExecutor σ × World σ :=
  match e.requestBytes request w with
  | (.error fault, e, w) => (.error fault, e, w)
  | (.ok bytes, e, w) =>
    let (signed, peer) := e.signer.sign bytes w.peer
    let w := { w with peer }
    match signed with
    | .error fault => (.error (.signing fault), e, w)
    | .ok signature =>
      let (r, inner, w) := e.inner.execute bytes [signature] e.signer.address w
      (r, { e with inner }, w)

/-- Executes a request; a failure empties the cache. -/
def execute (e : SerialExecutor σ) (request : ExecuteRequest) (w : World σ) :
    Except ExecutorError ExecutionResult × SerialExecutor σ × World σ :=
  match e.attempt request w with
  | (.ok result, e, w) => (.ok result, { e with lastDigest := some result.digest }, w)
  | (.error fault, e, w) =>
    let w := { w with metrics := w.metrics.failSubmission fault.category }
    let (inner, w) := e.inner.reset w
    (.error fault, { e with inner }, w)

def resetCache (e : SerialExecutor σ) (w : World σ) : SerialExecutor σ × World σ :=
  let (inner, w) := e.inner.reset w
  ({ e with inner }, w)

def waitFor (e : SerialExecutor σ) (digest : Digest) (cancelAt : Option Nat) (w : World σ) :
    Except ExecutorError Included × World σ :=
  let (r, w) := Inclusion.waitFor e.inner.ledger digest e.inclusion cancelAt w
  (r.mapError .wait, w)

/-- Waits for the last transaction, if there was one. -/
def waitForLast (e : SerialExecutor σ) (cancelAt : Option Nat) (w : World σ) :
    Except ExecutorError (Option Included) × World σ :=
  match e.lastDigest with
  | none => (.ok none, w)
  | some digest =>
    let (r, w) := e.waitFor digest cancelAt w
    (r.map some, w)

/-- Executes requests in the order of their arrival. -/
def executeAll (e : SerialExecutor σ) : List ExecuteRequest → World σ →
    List (Except ExecutorError ExecutionResult) × SerialExecutor σ × World σ
  | [], w => ([], e, w)
  | request :: rest, w =>
    let (r, e, w) := e.execute request w
    let (rs, e, w) := executeAll e rest w
    (r :: rs, e, w)

end SerialExecutor

end ObjectLedger
