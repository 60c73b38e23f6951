import ObjectLedger.Hash.Blake2b
import ObjectLedger.Transaction.Basic
import ObjectLedger.TypeTag.Basic
import ObjectLedger.Wire.Ledger

/-!
# Decoding transactions

The transaction that bytes stand for, with its types in canonical text, and the digest that names the
bytes on the ledger.
-/

namespace ObjectLedger

namespace Wire.Reader

/-- Levels of a type below its root that are read. -/
def typeDepth : Nat := 64

/-- A type tag; the first argument is one more than the levels that may still be opened. -/
def typeTagWithin : Nat → Reader TypeTag
  | 0 => fail .typeTooDeep
  | levels + 1 => do
    match ← variant with
    | 0 => return .bool
    | 1 => return .u8
    | 2 => return .u64
    | 3 => return .u128
    | 4 => return .address
    | 5 => return .signer
    | 6 => return .vector (← typeTagWithin levels)
    | 7 =>
      let owner ← address
      let module ← string
      let name ← string
      return .struct owner module name (← seq (typeTagWithin levels))
    | 8 => return .u16
    | 9 => return .u32
    | 10 => return .u256
    | tag => fail (.unknownVariant "TypeTag" tag)

def typeTag : Reader TypeTag := typeTagWithin (typeDepth + 1)

def argument : Reader Argument := do
  match ← variant with
  | 0 => return .feeObject
  | 1 => return .input (← u16)
  | 2 => return .result (← u16)
  | 3 =>
    let command ← u16
    return .nestedResult command (← u16)
  | tag => fail (.unknownVariant "Argument" tag)

def objectArg : Reader ObjectArg := do
  match ← variant with
  | 0 => return .owned (← objectRef)
  | 1 =>
    let objectId ← address
    let version ← u64
    return .shared objectId version (← bool)
  | 2 => return .receiving (← objectRef)
  | tag => fail (.unknownVariant "ObjectArg" tag)

def input : Reader Input := do
  match ← variant with
  | 0 => return .pure (← bytes)
  | 1 => return .object (← objectArg)
  | tag => fail (.unknownVariant "CallArg" tag)

/-- A command; types are given in canonical text. -/
def command : Reader Command := do
  match ← variant with
  | 0 =>
    let package ← address
    let module ← string
    let function ← string
    let types ← seq typeTag
    let arguments ← seq argument
    return .moveCall { package := .address package, module, function,
                       typeArguments := types.map TypeTag.text, arguments }
  | 1 =>
    let objects ← seq argument
    return .transferObjects objects (← argument)
  | 2 =>
    let coin ← argument
    return .splitCoins coin (← seq argument)
  | 3 =>
    let destination ← argument
    return .mergeCoins destination (← seq argument)
  | 4 =>
    let modules ← seq bytes
    return .publish modules (← seq address)
  | 5 =>
    let elementType ← option typeTag
    return .makeMoveVec (elementType.map TypeTag.text) (← seq argument)
  | 6 =>
    let modules ← seq bytes
    let dependencies ← seq address
    let package ← address
    return .upgrade modules dependencies package (← argument)
  | tag => fail (.unknownVariant "Command" tag)

def kind : Reader (List Input × List Command) := do
  match ← variant with
  | 0 =>
    let inputs ← seq input
    return (inputs, ← seq command)
  | tag => fail (.notProgrammable tag)

def expiration : Reader Expiration := do
  match ← variant with
  | 0 => return .none
  | 1 => return .epoch (← u64)
  | tag => fail (.unknownVariant "TransactionExpiration" tag)

def transaction : Reader Transaction := do
  match ← variant with
  | 0 =>
    let (inputs, commands) ← kind
    let sender ← address
    let payment ← seq objectRef
    let owner ← address
    let price ← u64
    let budget ← u64
    let expiration ← expiration
    return { sender := some sender, expiration,
             gas := { payment := some payment, owner := some owner, price := some price,
                      budget := some budget }
             inputs, commands }
  | tag => fail (.unsupportedVersion "TransactionData" (tag + 1))

end Wire.Reader

namespace Transaction

def decode (bytes : List UInt8) : Except DecodeError Transaction :=
  Wire.Reader.transaction.decode bytes

def decodeKind (bytes : List UInt8) : Except DecodeError (List Input × List Command) :=
  Wire.Reader.kind.decode bytes

/-- What is hashed in front of the bytes of a transaction. -/
def digestSalt : List UInt8 := utf8Bytes "TransactionData::"

/-- The digest that names the bytes of a transaction. -/
def digest (bytes : List UInt8) : Digest :=
  ⟨.ofTail (Blake2b.hash256 (digestSalt ++ bytes))⟩

end Transaction

end ObjectLedger
