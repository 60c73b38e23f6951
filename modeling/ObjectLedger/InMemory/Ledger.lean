import ObjectLedger.Executor.Serial
import ObjectLedger.Transaction.Decode

/-!
# A ledger in memory

Objects, packages and coins that can be looked up, and a ledger over them that runs transactions for
their fee alone: the first coin that pays has to be at its current version, and moves on to the next.
-/

namespace ObjectLedger

/-- An answer to a question for effects that is fixed beforehand. -/
inductive FetchStep where
  | notYet
  | fail (fault : ClientError)
  deriving DecidableEq

/-- The state of the ledger and of what can be looked up. -/
structure InMemory where
  objects : Table ObjectId ObjectInfo := []
  packages : Table String Address := []
  /-- Coins by owner and canonical type. -/
  coins : Table (Address × String) (List CoinInfo) := []
  price : UInt64 := 1000
  objectRequests : Nat := 0
  packageRequests : Nat := 0
  effects : Table Digest (List UInt8) := []
  /-- Transactions that were run, the last one first. -/
  submitted : List Transaction := []
  submitErrors : List ClientError := []
  executionFailures : List ExecutionFailure := []
  fetchScript : List FetchStep := []
  /-- Milliseconds that a submission takes. -/
  latency : Nat := 0

namespace InMemory

/-- The type that coins are listed under. -/
def coinKey (coinType : String) : String :=
  match TypeTag.normalize coinType with
  | .ok text => text
  | .error _ => coinType

def addObject (m : InMemory) (info : ObjectInfo) : InMemory :=
  { m with objects := Table.insert m.objects info.ref.objectId info }

def addPackage (m : InMemory) (name : String) (a : Address) : InMemory :=
  { m with packages := Table.insert m.packages name a }

/-- Lists the coins of an owner and a type, in place of any others; each one is an object too. -/
def addCoins (m : InMemory) (owner : Address) (coinType : String) (coins : List CoinInfo) :
    InMemory :=
  let m := coins.foldl (fun m coin => m.addObject ⟨coin.ref, .address owner⟩) m
  { m with coins := Table.insert m.coins (owner, coinKey coinType) coins }

/-- A coin that follows an object to a new reference. -/
def followCoin (ref : ObjectRef) (coin : CoinInfo) : CoinInfo :=
  if coin.ref.objectId = ref.objectId then { coin with ref } else coin

/-- Moves an object to a new reference and owner, also where it is listed as a coin. -/
def advance (m : InMemory) (ref : ObjectRef) (owner : Owner) : InMemory :=
  { m.addObject ⟨ref, owner⟩ with
    coins := m.coins.map fun entry => (entry.1, entry.2.map (followCoin ref)) }

/-- Refuses a later submission. -/
def failSubmit (m : InMemory) (fault : ClientError) : InMemory :=
  { m with submitErrors := m.submitErrors ++ [fault] }

/-- Lets the execution of a later transaction fail. -/
def failExecution (m : InMemory) (failure : ExecutionFailure) : InMemory :=
  { m with executionFailures := m.executionFailures ++ [failure] }

/-- Fixes the answers to later questions for effects. -/
def scriptFetches (m : InMemory) (steps : List FetchStep) : InMemory :=
  { m with fetchScript := m.fetchScript ++ steps }

def addEffects (m : InMemory) (digest : Digest) (bytes : List UInt8) : InMemory :=
  { m with effects := Table.insert m.effects digest bytes }

def object? (m : InMemory) (objectId : ObjectId) : Option ObjectInfo :=
  Table.get? m.objects objectId

def lookup : Lookup InMemory where
  objects ids m :=
    (.ok (ids.map m.object?), { m with objectRequests := m.objectRequests + 1 })
  packages names m :=
    (.ok (names.filterMap fun name => (Table.get? m.packages name).map (name, ·)),
     { m with packageRequests := m.packageRequests + 1 })
  gasPrice m := (.ok m.price, m)
  coins owner coinType m :=
    (.ok ((Table.get? m.coins (owner, coinKey coinType)).getD []), m)

/-- The digest that the coin which pays has after a transaction. -/
def nextDigest (digest : Digest) : Digest := ⟨.ofTail (Blake2b.hash256 digest.bytes)⟩

/-- The status of the next transaction: a failure that is fixed beforehand, or success. -/
def nextStatus (m : InMemory) : ExecutionStatus :=
  match m.executionFailures with
  | error :: _ => .failure error (some 0)
  | [] => .success

/-- Runs a transaction whose coin is at its current version. -/
def commit (m : InMemory) (tx : Transaction) (digest : Digest) (owner : Address) (fee : ObjectRef) :
    SubmitResponse × InMemory :=
  let version := fee.version + 1
  let newDigest := nextDigest digest
  let effects := { Effects.ofFee digest fee newDigest owner version with status := m.nextStatus }
  let bytes := effects.encode
  let m := m.advance ⟨fee.objectId, version, newDigest⟩ (.address owner)
  (⟨digest, bytes⟩,
   { m with
     executionFailures := m.executionFailures.tail
     effects := Table.insert m.effects digest bytes
     submitted := tx :: m.submitted })

/-- Runs encoded bytes, or refuses them. -/
def run (m : InMemory) (bytes : List UInt8) : Except ClientError SubmitResponse × InMemory :=
  match m.submitErrors with
  | fault :: rest => (.error fault, { m with submitErrors := rest })
  | [] =>
    match Transaction.decode bytes with
    | .error fault => (.error (.rejected s!"undecodable transaction: {fault.message}"), m)
    | .ok tx =>
      match tx.gasOwner, tx.gas.payment.bind List.head? with
      | none, _ => (.error (.rejected "missing gas owner"), m)
      | _, none => (.error (.rejected "missing gas payment"), m)
      | some owner, some fee =>
        if (m.object? fee.objectId).map (·.ref) = some fee then
          let (response, m) := m.commit tx (Transaction.digest bytes) owner fee
          (.ok response, m)
        else
          (.error (.rejected
            s!"object {fee.objectId} at version {fee.version} is not available for consumption"), m)

def ledger : Ledger InMemory where
  submit bytes signatures m :=
    if signatures.isEmpty then ((.error (.rejected "missing signature"), m.latency), m)
    else
      let (r, m') := m.run bytes
      ((r, m.latency), m')
  fetch digest _ m :=
    match m.fetchScript with
    | .notYet :: rest => (.ok none, { m with fetchScript := rest })
    | .fail fault :: rest => (.error fault, { m with fetchScript := rest })
    | [] => (.ok (Table.get? m.effects digest), m)

/-- The signature of the signer in memory: a zero flag and a hash of the bytes. -/
def hashSignature (bytes : List UInt8) : UserSignature := ⟨0 :: Blake2b.hash256 bytes⟩

/-- A signer whose signature is a hash. -/
def signer {σ : Type} (address : Address) : Signer σ where
  address
  sign bytes s := (.ok (hashSignature bytes), s)

/-- A signer that refuses. -/
def refusingSigner {σ : Type} (address : Address) : Signer σ where
  address
  sign _ s := (.error (.signing "mock signer refused"), s)

end InMemory

end ObjectLedger
