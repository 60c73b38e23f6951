import ObjectLedger.Resolve.Basic
import ObjectLedger.Table
import ObjectLedger.Text.Literal
import ObjectLedger.Transaction.Splice

/-!
# Intents

Each intent goes to the handler of its name, first things first. A handler has to leave fewer intents
than it found, so there are at most as many calls as intents at the start.
-/

namespace ObjectLedger

/-- Puts concrete commands in the place of the intent at an index. -/
abbrev IntentHandler (σ : Type) :=
  Transaction → Nat → Intent → BuildOptions σ → Build σ Transaction

/-- Handlers by the names of their intents. -/
structure IntentRegistry (σ : Type) where
  handlers : Table String (IntentHandler σ) := []

namespace IntentRegistry

variable {σ : Type}

def empty : IntentRegistry σ := {}

def get? (r : IntentRegistry σ) (name : String) : Option (IntentHandler σ) :=
  Table.get? r.handlers name

def contains (r : IntentRegistry σ) (name : String) : Bool := (r.get? name).isSome

/-- The registry with a handler for a name, in place of any other. -/
def insert (r : IntentRegistry σ) (name : String) (handler : IntentHandler σ) : IntentRegistry σ :=
  ⟨Table.insert r.handlers name handler⟩

/-- The names that have handlers, sorted. -/
def names (r : IntentRegistry σ) : List String :=
  (r.handlers.map (·.1)).mergeSort fun a b => decide (a ≤ b)

/-- Texts between brackets as the display of a list shows them. -/
def displayList (items : List String) : String :=
  "[" ++ String.intercalate ", " (items.map literal) ++ "]"

/-- A value of one field as its display shows it. -/
def displayRecord (name field value : String) : String :=
  name ++ " \x7b " ++ field ++ ": " ++ value ++ " \x7d"

def display (r : IntentRegistry σ) : String :=
  displayRecord "IntentRegistry" "handlers" (displayList r.names)

end IntentRegistry

/-- Passes the data of an intent to a function and removes the intent, whose result nothing may use. -/
def callbackHandler {σ : Type} (call : Json → σ → Except String Unit × σ) : IntentHandler σ :=
  fun tx index intent _ =>
    ExceptT.mk fun w =>
      match call intent.data w.peer with
      | (.error reason, peer) => (.error (.intent intent.name (.refused reason)), { w with peer })
      | (.ok (), peer) => (tx.replaceCommand index [] none, { w with peer })

namespace Transaction

/-- The first intent and its index, counting from one. -/
def firstIntentFrom : Nat → List Command → Option (Nat × Intent)
  | _, [] => none
  | index, .intent i :: _ => some (index, i)
  | index, _ :: rest => firstIntentFrom (index + 1) rest

def firstIntent? (tx : Transaction) : Option (Nat × Intent) := firstIntentFrom 0 tx.commands

def isIntent : Command → Bool
  | .intent _ => true
  | _ => false

def intentCount (tx : Transaction) : Nat := tx.commands.countP isIntent

/-- The first intent without a handler. -/
def unregistered? {σ : Type} (r : IntentRegistry σ) (tx : Transaction) : Option String :=
  tx.commands.findSome? fun
    | .intent i => if r.contains i.name then none else some i.name
    | _ => none

end Transaction

/-- Hands intents to their handlers until none is left; the fuel bounds the number of calls. -/
def resolveIntentsWithin {σ : Type} (r : IntentRegistry σ) (o : BuildOptions σ) :
    Nat → Transaction → Build σ Transaction
  | fuel, tx =>
    match tx.firstIntent? with
    | none => pure tx
    | some (index, intent) =>
      match r.get? intent.name with
      | none => throw (.unregisteredIntent intent.name)
      | some handler =>
        match fuel with
        | 0 => throw (.intent intent.name .notConsumed)
        | fuel + 1 => do
          let next ← handler tx index intent o
          if tx.intentCount ≤ next.intentCount then throw (.intent intent.name .notConsumed)
          else resolveIntentsWithin r o fuel next

/-- Resolves the intents of a transaction; one without a handler is refused before any handler runs. -/
def resolveIntents {σ : Type} (r : IntentRegistry σ) (o : BuildOptions σ) (tx : Transaction) :
    Build σ Transaction :=
  match tx.unregistered? r with
  | some name => throw (.unregisteredIntent name)
  | none => resolveIntentsWithin r o tx.intentCount tx

end ObjectLedger
