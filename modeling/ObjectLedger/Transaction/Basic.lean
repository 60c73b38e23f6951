import ObjectLedger.Transaction.Command
import ObjectLedger.Transaction.Input

/-!
# Transactions

What a transaction holds while it is being put together: inputs, commands, and the sender, gas and
expiration that may still be open.
-/

namespace ObjectLedger

/-- Until when a transaction may run. -/
inductive Expiration where
  | none
  /-- Through the epoch of a number. -/
  | epoch (number : UInt64)
  deriving DecidableEq, Inhabited

/-- Who pays, with which coins, at which price and up to which budget. -/
structure GasData where
  payment : Option (List ObjectRef) := Option.none
  owner : Option Address := Option.none
  price : Option UInt64 := Option.none
  budget : Option UInt64 := Option.none
  deriving DecidableEq, Inhabited

/-- A transaction in the making. -/
structure Transaction where
  sender : Option Address := Option.none
  expiration : Expiration := Expiration.none
  gas : GasData := ⟨Option.none, Option.none, Option.none, Option.none⟩
  inputs : List Input := []
  commands : List Command := []
  deriving DecidableEq, Inhabited

namespace Transaction

/-- No inputs, no commands, nothing set. -/
def empty : Transaction := ⟨.none, .none, {}, [], []⟩

/-- Who pays: the gas owner, or else the sender. -/
def gasOwner (tx : Transaction) : Option Address := tx.gas.owner.or tx.sender

end Transaction

instance : ToJson Expiration where
  toJson
    | .none => .text "None"
    | .epoch number => .tagged "Epoch" (toJson number)

instance : OfJson Expiration where
  ofJson? j := do
    match ← j.variant? with
    | ("None", p) => Json.unit? .none p
    | ("Epoch", p) => Json.single? Expiration.epoch p
    | _ => failure

instance : ToJson GasData where
  toJson g := .object [("payment", toJson g.payment), ("owner", toJson g.owner),
    ("price", toJson g.price), ("budget", toJson g.budget)]

instance : OfJson GasData where
  ofJson? := Json.record? do
    return { payment := ← Json.optional (List ObjectRef) "payment"
             owner := ← Json.optional Address "owner"
             price := ← Json.optional UInt64 "price"
             budget := ← Json.optional UInt64 "budget" }

instance : ToJson Transaction where
  toJson tx := .object [("sender", toJson tx.sender), ("expiration", toJson tx.expiration),
    ("gas", toJson tx.gas), ("inputs", toJson tx.inputs), ("commands", toJson tx.commands)]

instance : OfJson Transaction where
  ofJson? := Json.record? do
    return { sender := ← Json.optional Address "sender"
             expiration := ← Json.defaulted "expiration" Expiration.none
             gas := ← Json.defaulted "gas" ({} : GasData)
             inputs := ← Json.required (List Input) "inputs"
             commands := ← Json.required (List Command) "commands" }

end ObjectLedger
