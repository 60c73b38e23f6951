import ObjectLedger.Transaction.Inputs
import ObjectLedger.Transaction.Validity
import ObjectLedger.Wire.Schema

/-!
# Editing transactions

Adding inputs and commands one at a time, each with the argument that names it, and setting sender, gas
and expiration. A step that fails changes nothing.
-/

namespace ObjectLedger

/-- The name of the intent for a coin of an exact balance. -/
def coinWithBalance : String := "CoinWithBalance"

/-- The package, module and function of a call, from their text. -/
def parseTarget (target : String) : Except BuildError (PackageRef × String × String) :=
  match TypeTag.splitColons target.toList with
  | [package, module, function] =>
    if module = [] ∨ function = [] then .error (.invalidTarget target)
    else
      match package with
      | '@' :: _ =>
        .ok (.named (String.ofList package), String.ofList module, String.ofList function)
      | _ =>
        match Address.parse (String.ofList package) with
        | .ok a => .ok (.address a, String.ofList module, String.ofList function)
        | .error _ => .error (.invalidTarget target)
  | _ => .error (.invalidTarget target)

/-- The canonical form of a type; one that a named package stands in is left for resolution. -/
def normalizeTypeArgument (text : String) : Except BuildError String :=
  if text.contains '@' then .ok (trimmed text)
  else (TypeTag.normalize text).mapError .invalidType

namespace Transaction

/-- A step that gives the argument naming what it added. -/
abbrev Step := Except BuildError (Argument × Transaction)

/-- Adds an input, or finds the slot it shares. -/
def addInput (tx : Transaction) (input : Input) : Step :=
  (Input.insert tx.inputs input).map fun r => (.input r.1, { tx with inputs := r.2 })

/-- Appends a command whose arguments are valid. -/
def addCommand (tx : Transaction) (command : Command) : Step :=
  let index := tx.commands.length
  if index < UInt16.size then
    (Argument.checkAll index tx.inputs.length command.arguments).map fun _ =>
      (.result (UInt16.ofNat index), { tx with commands := tx.commands ++ [command] })
  else .error (.tooMany "commands")

def addValue (tx : Transaction) (schema : Wire.Schema) (value : schema.Value) : Step :=
  tx.addInput (.pure (schema.write value))

def addObject (tx : Transaction) (arg : ObjectArg) : Step := tx.addInput (.object arg)

def addUnresolved (tx : Transaction) (object : UnresolvedObject) : Step :=
  tx.addInput (.unresolved object)

/-- Appends a call of `package::module::function`. -/
def addMoveCall (tx : Transaction) (target : String) (typeArguments : List String)
    (arguments : List Argument) : Step := do
  let (package, module, function) ← parseTarget target
  let typeArguments ← typeArguments.mapM normalizeTypeArgument
  tx.addCommand (.moveCall { package, module, function, typeArguments, arguments })

def addMakeMoveVec (tx : Transaction) (elementType : Option String) (elements : List Argument) :
    Step := do
  let elementType ← elementType.mapM normalizeTypeArgument
  tx.addCommand (.makeMoveVec elementType elements)

def addIntent (tx : Transaction) (name : String) (inputs : List (String × List Argument))
    (data : Json) : Step :=
  tx.addCommand (.intent { name, inputs, data })

/-- Appends the intent for a coin of a type that holds exactly a balance. -/
def addCoinWithBalance (tx : Transaction) (coinType : String) (balance : UInt64) : Step := do
  let coinType ← normalizeTypeArgument coinType
  tx.addIntent coinWithBalance []
    (.object [("balance", toJson balance), ("type", .text coinType)])

def withSender (tx : Transaction) (sender : Address) : Transaction :=
  { tx with sender := some sender }

def withDefaultSender (tx : Transaction) (sender : Address) : Transaction :=
  { tx with sender := tx.sender.or (some sender) }

def withBudget (tx : Transaction) (budget : UInt64) : Transaction :=
  { tx with gas := { tx.gas with budget := some budget } }

def withDefaultBudget (tx : Transaction) (budget : UInt64) : Transaction :=
  { tx with gas := { tx.gas with budget := tx.gas.budget.or (some budget) } }

def withPrice (tx : Transaction) (price : UInt64) : Transaction :=
  { tx with gas := { tx.gas with price := some price } }

def withGasOwner (tx : Transaction) (owner : Address) : Transaction :=
  { tx with gas := { tx.gas with owner := some owner } }

def withPayment (tx : Transaction) (payment : List ObjectRef) : Transaction :=
  { tx with gas := { tx.gas with payment := some payment } }

def withExpiration (tx : Transaction) (expiration : Expiration) : Transaction :=
  { tx with expiration }

end Transaction

end ObjectLedger
