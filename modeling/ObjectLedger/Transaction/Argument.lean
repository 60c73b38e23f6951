import ObjectLedger.Json.Record

/-!
# Arguments of commands

An argument names the coin that pays, an input, or the result of an earlier command.
-/

namespace ObjectLedger

/-- What a command takes. -/
inductive Argument where
  /-- The coin that pays for the transaction. -/
  | feeObject
  | input (index : UInt16)
  | result (command : UInt16)
  /-- One of several results of a command. -/
  | nestedResult (command : UInt16) (index : UInt16)
  deriving DecidableEq, Repr, Inhabited

namespace Argument

/-- One of the results of the command that a result names. -/
def nested (a : Argument) (index : UInt16) : Option Argument :=
  match a with
  | result command => some (nestedResult command index)
  | _ => none

def command? : Argument → Option UInt16
  | result command => some command
  | nestedResult command _ => some command
  | _ => none

def display : Argument → String
  | feeObject => "FeeObject"
  | input index => s!"Input({index})"
  | result command => s!"Result({command})"
  | nestedResult command index => s!"NestedResult({command}, {index})"

end Argument

instance : ToJson Argument where
  toJson
    | .feeObject => .text "FeeObject"
    | .input index => .tagged "Input" (toJson index)
    | .result command => .tagged "Result" (toJson command)
    | .nestedResult command index => .tagged "NestedResult" (toJson (command, index))

instance : OfJson Argument where
  ofJson? j := do
    match ← j.variant? with
    | ("FeeObject", p) => Json.unit? .feeObject p
    | ("Input", p) => Json.single? Argument.input p
    | ("Result", p) => Json.single? Argument.result p
    | ("NestedResult", p) =>
      Json.single? (fun (p : UInt16 × UInt16) => Argument.nestedResult p.1 p.2) p
    | _ => none

end ObjectLedger
