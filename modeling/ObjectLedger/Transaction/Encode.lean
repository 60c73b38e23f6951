import ObjectLedger.Transaction.Basic
import ObjectLedger.TypeTag.Parser
import ObjectLedger.Wire.Ledger

/-!
# Encoding transactions

A transaction that is ready for the wire as bytes: its kind with inputs and commands, then sender, gas
and expiration. Whatever is still open is refused.
-/

namespace ObjectLedger

/-- Why a transaction could not be encoded. -/
inductive EncodeError where
  | missingField (field : String)
  | unresolvedInput (index : Nat) (objectId : ObjectId)
  | unresolvedPackage (name : String)
  | unconsumedIntent (name : String)
  | invalidType (fault : ParseError)
  deriving DecidableEq

def EncodeError.message : EncodeError → String
  | missingField field => s!"missing {field}"
  | unresolvedInput index objectId => s!"input {index} for object {objectId} is unresolved"
  | unresolvedPackage name => s!"package '{name}' is unresolved"
  | unconsumedIntent name => s!"intent '{name}' was not consumed before encoding"
  | invalidType fault => s!"invalid type argument: {fault.message}"

namespace Wire

mutual

def typeTag : TypeTag → Bytes
  | .bool => variant 0
  | .u8 => variant 1
  | .u64 => variant 2
  | .u128 => variant 3
  | .address => variant 4
  | .signer => variant 5
  | .vector element => variant 6 ++ typeTag element
  | .struct owner module name params =>
    variant 7 ++ address owner ++ string module ++ string name ++ length params.length ++
      typeTags params
  | .u16 => variant 8
  | .u32 => variant 9
  | .u256 => variant 10

def typeTags : List TypeTag → Bytes
  | [] => []
  | t :: ts => typeTag t ++ typeTags ts

end

def argument : Argument → Bytes
  | .feeObject => variant 0
  | .input index => variant 1 ++ u16 index
  | .result command => variant 2 ++ u16 command
  | .nestedResult command index => variant 3 ++ u16 command ++ u16 index

def objectArg : ObjectArg → Bytes
  | .owned ref => variant 0 ++ objectRef ref
  | .shared objectId version isMutable =>
    variant 1 ++ address objectId ++ u64 version ++ bool isMutable
  | .receiving ref => variant 2 ++ objectRef ref

def input (index : Nat) : Input → Except EncodeError Bytes
  | .pure bs => .ok (variant 0 ++ bytes bs)
  | .object arg => .ok (variant 1 ++ objectArg arg)
  | .unresolved u => .error (.unresolvedInput index u.objectId)

/-- Reads a type that no named package stands in. -/
def parsedType (text : String) : Except EncodeError TypeTag :=
  if text.contains '@' then .error (.unresolvedPackage text)
  else (TypeTag.parse text).mapError .invalidType

def command : Command → Except EncodeError Bytes
  | .moveCall call => do
    let package ← match call.package with
      | .address a => Except.ok a
      | .named name => Except.error (.unresolvedPackage name)
    let types ← call.typeArguments.mapM parsedType
    return variant 0 ++ address package ++ string call.module ++ string call.function ++
      seq typeTag types ++ seq argument call.arguments
  | .transferObjects objects recipient =>
    return variant 1 ++ seq argument objects ++ argument recipient
  | .splitCoins coin amounts => return variant 2 ++ argument coin ++ seq argument amounts
  | .mergeCoins destination sources =>
    return variant 3 ++ argument destination ++ seq argument sources
  | .publish modules dependencies =>
    return variant 4 ++ seq bytes modules ++ seq address dependencies
  | .makeMoveVec elementType elements => do
    let elementType ← elementType.mapM parsedType
    return variant 5 ++ option typeTag elementType ++ seq argument elements
  | .upgrade modules dependencies package ticket =>
    return variant 6 ++ seq bytes modules ++ seq address dependencies ++ address package ++
      argument ticket
  | .intent i => .error (.unconsumedIntent i.name)

def expirationTag : Expiration → Bytes
  | .none => variant 0
  | .epoch number => variant 1 ++ u64 number

end Wire

namespace Transaction

open Wire

def encodeKind (tx : Transaction) : Except EncodeError Bytes := do
  let inputs ← tx.inputs.zipIdx.mapM fun entry => input entry.2 entry.1
  let commands ← tx.commands.mapM command
  return variant 0 ++ length tx.inputs.length ++ inputs.flatten ++ length tx.commands.length ++
    commands.flatten

/-- A value that has to be set. -/
def needed {α : Type} (field : String) : Option α → Except EncodeError α
  | some x => .ok x
  | none => .error (.missingField field)

/-- The bytes of a whole transaction. The gas owner has to be named, so that reading the bytes gives
the same transaction back. -/
def encode (tx : Transaction) : Except EncodeError Bytes := do
  let sender ← needed "sender" tx.sender
  let owner ← needed "gas owner" tx.gas.owner
  let payment ← needed "gas payment" tx.gas.payment
  let price ← needed "gas price" tx.gas.price
  let budget ← needed "gas budget" tx.gas.budget
  let kind ← tx.encodeKind
  return variant 0 ++ kind ++ address sender ++ seq objectRef payment ++ address owner ++
    u64 price ++ u64 budget ++ expirationTag tx.expiration

end Transaction

end ObjectLedger
