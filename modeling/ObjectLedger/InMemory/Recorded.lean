import ObjectLedger.InMemory.Ledger

/-!
# A recorded ledger

The ledger in memory behind a record of every question put to it, with failures and answers that are
fixed beforehand.
-/

namespace ObjectLedger

/-- A question put to the world. -/
inductive Call where
  | objects (ids : List ObjectId)
  | packages (names : List String)
  | gasPrice
  | coins (owner : Address) (coinType : String)
  | submit (bytes : List UInt8) (signatures : List UserSignature)
  | fetch (clock : Nat)
  | callback (data : Json)

/-- A question of a lookup that can be made to fail. -/
inductive LookupMethod where
  | objects
  | packages
  | gasPrice
  | coins
  deriving DecidableEq, Repr

/-- The ledger in memory, the calls made, and what is fixed beforehand. -/
structure Recorded where
  ledger : InMemory := {}
  /-- Calls since the record was last read, the last one first. -/
  calls : List Call := []
  lookupErrors : List (LookupMethod × ClientError) := []
  /-- The number of answers that the next question for objects gets. -/
  truncation : Option Nat := none
  /-- Answers to submissions that never reach the ledger. -/
  responses : List SubmitResponse := []

namespace Recorded

def note (r : Recorded) (call : Call) : Recorded := { r with calls := call :: r.calls }

/-- Lets a later question fail. -/
def failLookup (r : Recorded) (method : LookupMethod) (fault : ClientError) : Recorded :=
  { r with lookupErrors := r.lookupErrors ++ [(method, fault)] }

/-- Fixes the answer to a later submission. -/
def respond (r : Recorded) (response : SubmitResponse) : Recorded :=
  { r with responses := r.responses ++ [response] }

/-- Takes the next failure that is fixed for a question. -/
def takeError (r : Recorded) (method : LookupMethod) : Option ClientError × Recorded :=
  match r.lookupErrors.find? (·.1 = method) with
  | none => (none, r)
  | some entry =>
    let (before, after) := r.lookupErrors.span fun e => decide (e.1 ≠ method)
    (some entry.2, { r with lookupErrors := before ++ after.tail })

/-- Notes a question, and passes it on unless it is to fail. -/
def asking {α : Type} (call : Call) (method : LookupMethod)
    (question : InMemory → Except ClientError α × InMemory) (r : Recorded) :
    Except ClientError α × Recorded :=
  match (r.note call).takeError method with
  | (some fault, r) => (.error fault, r)
  | (none, r) =>
    let (answer, ledger) := question r.ledger
    (answer, { r with ledger })

def lookup : Lookup Recorded where
  objects ids r :=
    let (answer, r) := asking (.objects ids) .objects (InMemory.lookup.objects ids) r
    match answer, r.truncation with
    | .ok found, some count => (.ok (found.take count), { r with truncation := none })
    | answer, _ => (answer, r)
  packages names := asking (.packages names) .packages (InMemory.lookup.packages names)
  gasPrice := asking .gasPrice .gasPrice InMemory.lookup.gasPrice
  coins owner coinType :=
    asking (.coins owner coinType) .coins (InMemory.lookup.coins owner coinType)

def recordedLedger : Ledger Recorded where
  submit bytes signatures r :=
    let r := r.note (.submit bytes signatures)
    match r.responses with
    | response :: rest => ((.ok response, 0), { r with responses := rest })
    | [] =>
      let (answer, ledger) := InMemory.ledger.submit bytes signatures r.ledger
      (answer, { r with ledger })
  fetch digest clock r :=
    let r := r.note (.fetch clock)
    let (answer, ledger) := InMemory.ledger.fetch digest clock r.ledger
    (answer, { r with ledger })

/-- A handler that notes the data of its intent, and refuses for a reason if one is given. -/
def callback (refusal : Option String) : IntentHandler Recorded :=
  callbackHandler fun data r =>
    (match refusal with
      | some reason => .error reason
      | none => .ok (), r.note (.callback data))

end Recorded

instance : OfJson LookupMethod where
  ofJson?
    | .text "get_objects" => some .objects
    | .text "resolve_packages" => some .packages
    | .text "reference_gas_price" => some .gasPrice
    | .text "get_coins" => some .coins
    | _ => none

instance : OfJson FetchStep where
  ofJson?
    | .text "NotYet" => some .notYet
    | j => (ofJson? j).map .fail

instance : ToJson Call where
  toJson
    | .objects ids => .array [.text "get_objects", toJson ids]
    | .packages names => .array [.text "resolve_packages", toJson names]
    | .gasPrice => .array [.text "reference_gas_price", .null]
    | .coins owner coinType =>
      .array [.text "get_coins", .array [toJson owner, toJson coinType]]
    | .submit bytes signatures =>
      .array [.text "submit", .array [.text (Hex.text bytes),
        toJson (signatures.map UserSignature.text)]]
    | .fetch clock => .array [.text "fetch_effects", toJson clock]
    | .callback data => .array [.text "callback", data]

end ObjectLedger
