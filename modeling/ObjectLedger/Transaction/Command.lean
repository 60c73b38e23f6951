import ObjectLedger.Ledger.Object
import ObjectLedger.Transaction.Argument

/-!
# Commands of transactions

The seven commands of the ledger, and the intent, a placeholder that resolution replaces. A command
lists its arguments in a fixed order, and maps them in the same order.
-/

namespace ObjectLedger

/-- The package of a call: an address, or a name that resolution looks up. -/
inductive PackageRef where
  | address (address : Address)
  | named (name : String)
  deriving DecidableEq

def PackageRef.text : PackageRef → String
  | address a => a.text
  | named name => name

/-- A call of a function. -/
structure MoveCall where
  package : PackageRef
  module : String
  function : String
  /-- Canonical types; named packages may stand in them until resolution. -/
  typeArguments : List String
  arguments : List Argument
  deriving DecidableEq

def MoveCall.target (c : MoveCall) : String := s!"{c.package.text}::{c.module}::{c.function}"

/-- A placeholder for the commands that a handler puts in its place. -/
structure Intent where
  name : String
  /-- The arguments that the intent reads, by name. -/
  inputs : List (String × List Argument)
  data : Json
  deriving DecidableEq

/-- A step of a transaction. -/
inductive Command where
  | moveCall (call : MoveCall)
  | transferObjects (objects : List Argument) (recipient : Argument)
  | splitCoins (coin : Argument) (amounts : List Argument)
  | mergeCoins (destination : Argument) (sources : List Argument)
  | publish (modules : List (List UInt8)) (dependencies : List ObjectId)
  | makeMoveVec (elementType : Option String) (elements : List Argument)
  | upgrade (modules : List (List UInt8)) (dependencies : List ObjectId) (package : ObjectId)
      (ticket : Argument)
  | intent (intent : Intent)
  deriving DecidableEq

namespace Command

def kind : Command → String
  | moveCall _ => "MoveCall"
  | transferObjects .. => "TransferObjects"
  | splitCoins .. => "SplitCoins"
  | mergeCoins .. => "MergeCoins"
  | publish .. => "Publish"
  | makeMoveVec .. => "MakeMoveVec"
  | upgrade .. => "Upgrade"
  | intent _ => "Intent"

/-- The arguments in order. -/
def arguments : Command → List Argument
  | moveCall call => call.arguments
  | transferObjects objects recipient => objects ++ [recipient]
  | splitCoins coin amounts => coin :: amounts
  | mergeCoins destination sources => destination :: sources
  | publish .. => []
  | makeMoveVec _ elements => elements
  | upgrade _ _ _ ticket => [ticket]
  | intent i => i.inputs.flatMap (·.2)

def mapArguments {m : Type → Type} [Monad m] (f : Argument → m Argument) : Command → m Command
  | moveCall call => do return moveCall { call with arguments := ← call.arguments.mapM f }
  | transferObjects objects recipient => do
    let objects ← objects.mapM f
    return transferObjects objects (← f recipient)
  | splitCoins coin amounts => do
    let coin ← f coin
    return splitCoins coin (← amounts.mapM f)
  | mergeCoins destination sources => do
    let destination ← f destination
    return mergeCoins destination (← sources.mapM f)
  | publish modules dependencies => return publish modules dependencies
  | makeMoveVec elementType elements => do return makeMoveVec elementType (← elements.mapM f)
  | upgrade modules dependencies package ticket => do
    return upgrade modules dependencies package (← f ticket)
  | intent i => do
    let inputs ← i.inputs.mapM fun entry => do return (entry.1, ← entry.2.mapM f)
    return intent { i with inputs }

/-- Maps the arguments in order by a function that cannot fail. -/
def map (f : Argument → Argument) (c : Command) : Command :=
  (c.mapArguments fun a => pure (f a) : Id _).run

/-- One step of a mapping that stops: once a fault is recorded, arguments stay as they are. -/
def stepUntil {σ ε : Type} (f : Argument → StateM σ (Argument × Option ε)) (a : Argument) :
    StateM (σ × Option ε) Argument := fun (s, fault) =>
  match fault with
  | some e => (a, s, some e)
  | none =>
    let ((a, fault), s) := f a s
    (a, s, fault)

/-- Maps the arguments in order up to the first fault, by a function with a state. The argument at
fault stays as the function left it, and those after it are not touched. -/
def tryMapArguments {σ ε : Type} (f : Argument → StateM σ (Argument × Option ε)) (c : Command)
    (s : σ) : Command × σ × Option ε :=
  (c.mapArguments (stepUntil f)).run (s, none)

end Command

instance : ToJson PackageRef where
  toJson
    | .address a => .tagged "Address" (toJson a)
    | .named name => .tagged "Named" (toJson name)

instance : OfJson PackageRef where
  ofJson? j := do
    match ← j.variant? with
    | ("Address", p) => Json.single? PackageRef.address p
    | ("Named", p) => Json.single? PackageRef.named p
    | _ => none

instance : ToJson MoveCall where
  toJson c := .object [("package", toJson c.package), ("module", toJson c.module),
    ("function", toJson c.function), ("type_arguments", toJson c.typeArguments),
    ("arguments", toJson c.arguments)]

instance : OfJson MoveCall where
  ofJson? := Json.record? do
    return { package := ← Json.required PackageRef "package"
             module := ← Json.required String "module"
             function := ← Json.required String "function"
             typeArguments := ← Json.required (List String) "type_arguments"
             arguments := ← Json.required (List Argument) "arguments" }

/-- Named lists of arguments, in the order of the names. -/
structure NamedArguments where
  entries : List (String × List Argument)

instance : OfJson NamedArguments where
  ofJson?
    | .object fields => do
      let entries ← (Json.sortFields fields).mapM fun field => do
        return (field.1, ← ofJson? field.2)
      -- a value that a later one of the same name displaces still has to be well formed
      let _ ← fields.mapM fun field => (ofJson? field.2 : Option (List Argument))
      return ⟨entries⟩
    | _ => none

instance : ToJson Intent where
  toJson i := .object [("name", toJson i.name),
    ("inputs", .object (i.inputs.map fun entry => (entry.1, toJson entry.2))), ("data", i.data)]

instance : OfJson Intent where
  ofJson? := Json.record? do
    return { name := ← Json.required String "name"
             inputs := (← Json.required NamedArguments "inputs").entries
             data := (← Json.required Json "data").sorted }

instance : ToJson Command where
  toJson
    | .moveCall call => .tagged "MoveCall" (toJson call)
    | .transferObjects objects recipient =>
      .tagged "TransferObjects" (.object [("objects", toJson objects),
        ("recipient", toJson recipient)])
    | .splitCoins coin amounts =>
      .tagged "SplitCoins" (.object [("coin", toJson coin), ("amounts", toJson amounts)])
    | .mergeCoins destination sources =>
      .tagged "MergeCoins" (.object [("destination", toJson destination),
        ("sources", toJson sources)])
    | .publish modules dependencies =>
      .tagged "Publish" (.object [("modules", toJson modules),
        ("dependencies", toJson dependencies)])
    | .makeMoveVec elementType elements =>
      .tagged "MakeMoveVec" (.object [("element_type", toJson elementType),
        ("elements", toJson elements)])
    | .upgrade modules dependencies package ticket =>
      .tagged "Upgrade" (.object [("modules", toJson modules),
        ("dependencies", toJson dependencies), ("package", toJson package),
        ("ticket", toJson ticket)])
    | .intent i => .tagged "Intent" (toJson i)

instance : OfJson Command where
  ofJson? j := do
    match ← j.variant? with
    | ("MoveCall", p) => Json.single? Command.moveCall p
    | ("TransferObjects", p) =>
      Json.fields? (do
        return .transferObjects (← Json.required (List Argument) "objects")
          (← Json.required Argument "recipient")) p
    | ("SplitCoins", p) =>
      Json.fields? (do
        return .splitCoins (← Json.required Argument "coin")
          (← Json.required (List Argument) "amounts")) p
    | ("MergeCoins", p) =>
      Json.fields? (do
        return .mergeCoins (← Json.required Argument "destination")
          (← Json.required (List Argument) "sources")) p
    | ("Publish", p) =>
      Json.fields? (do
        return .publish (← Json.required (List (List UInt8)) "modules")
          (← Json.required (List Address) "dependencies")) p
    | ("MakeMoveVec", p) =>
      Json.fields? (do
        return .makeMoveVec (← Json.optional String "element_type")
          (← Json.required (List Argument) "elements")) p
    | ("Upgrade", p) =>
      Json.fields? (do
        return .upgrade (← Json.required (List (List UInt8)) "modules")
          (← Json.required (List Address) "dependencies") (← Json.required Address "package")
          (← Json.required Argument "ticket")) p
    | ("Intent", p) => Json.single? Command.intent p
    | _ => none

end ObjectLedger
