import ObjectLedger.Client.Basic
import ObjectLedger.Transaction.Encode

/-!
# Why a transaction could not be built

One cause per constructor, with its wording, its category, and whether building it again may succeed.
-/

namespace ObjectLedger

/-- Why an argument does not name what it should. -/
inductive ReferenceFault where
  | inputOutOfBounds (index : UInt16) (count : Nat)
  /-- The argument names the command itself or a later one. -/
  | notPrior (argument : Argument)
  /-- The argument names an input that its own transaction does not have. -/
  | mergedInput (index : UInt16)
  deriving DecidableEq, Repr

def ReferenceFault.message : ReferenceFault → String
  | inputOutOfBounds index count => s!"Input({index}) out of bounds for {count} inputs"
  | notPrior a => s!"{a.display} does not refer to a prior command"
  | mergedInput index => s!"Input({index}) out of bounds in merged transaction"

/-- Why the handler of an intent gave up. -/
inductive IntentFault where
  /-- The data of the intent are not what the handler reads. -/
  | malformedData
  | insufficient (owner : Address) (total : Nat) (coinType : String) (needed : UInt64)
  /-- The intent is still there after its handler. -/
  | notConsumed
  | refused (reason : String)
  deriving DecidableEq

def IntentFault.message : IntentFault → String
  | malformedData => "<data>"
  | insufficient owner total coinType needed =>
    s!"{owner} holds {total} of {coinType}, needs {needed}"
  | notConsumed => "handler did not consume the intent command"
  | refused reason => reason

/-- What is still open in a transaction. -/
inductive OpenPart where
  | input (index : Nat) (objectId : ObjectId)
  | intent (name : String)
  deriving DecidableEq

def OpenPart.message : OpenPart → String
  | input index objectId => s!"input {index} ({objectId}) is unresolved"
  | intent name => s!"intent '{name}' was not resolved"

/-- A state that the rules of the library exclude. -/
inductive Impossible where
  | nestedResultOf (target : Argument)
  | mergeOfPure
  | noCoins
  deriving DecidableEq, Repr

def Impossible.message : Impossible → String
  | nestedResultOf target => s!"cannot take a nested result of {target.display}"
  | mergeOfPure => "merge_inputs called on pure input"
  | noCoins => "coin selection returned no coins"

/-- Why a transaction could not be built. -/
inductive BuildError where
  | unresolvedName (name : String)
  | objectNotFound (objectId : ObjectId)
  | unregisteredIntent (name : String)
  /-- A lookup is needed for a purpose and there is none. -/
  | missingClient (purpose : String)
  | intent (name : String) (fault : IntentFault)
  | invalidReference (command : Nat) (fault : ReferenceFault)
  /-- A result is used whose command was removed without a replacement for it. -/
  | danglingReference (command : Nat)
  | indexOutOfRange (index length : Nat)
  /-- One object is named in two ways that exclude each other. -/
  | conflictingInput (objectId : ObjectId) (existing incoming : String)
  /-- More of something than arguments can number. -/
  | tooMany (what : String)
  | invalidTarget (target : String)
  | invalidType (fault : ParseError)
  | missingSender
  | missingGasBudget
  | noGasCoins (owner : Address)
  | incomplete (part : OpenPart)
  | encode (fault : EncodeError)
  | client (fault : ClientError)
  | internal (state : Impossible)
  deriving DecidableEq

namespace BuildError

def message : BuildError → String
  | unresolvedName name => s!"Unresolved name: {name}"
  | objectNotFound objectId => s!"Object not found: {objectId}"
  | unregisteredIntent name => s!"Unregistered intent: {name}"
  | missingClient purpose => s!"Missing client: a lookup client is required to {purpose}"
  | intent name fault => s!"Intent '{name}' failed: {fault.message}"
  | invalidReference command fault =>
    s!"Invalid reference in command {command}: {fault.message}"
  | danglingReference command => s!"Dangling reference to removed command {command}"
  | indexOutOfRange index length => s!"Index {index} out of range for {length} commands"
  | conflictingInput objectId existing incoming =>
    s!"Conflicting inputs for object {objectId}: {existing} vs {incoming}"
  | tooMany what => s!"Too many {what}"
  | invalidTarget target => s!"Invalid move call target '{target}'"
  | invalidType fault => s!"Invalid type argument: {fault.message}"
  | missingSender => "Missing sender"
  | missingGasBudget => "Missing gas budget"
  | noGasCoins owner => s!"No gas coins available for {owner}"
  | incomplete part => s!"Incomplete transaction: {part.message}"
  | encode fault => s!"Encoding failed: {fault.message}"
  | client fault => s!"Client error: {fault.message}"
  | internal state => s!"Internal error: {state.message}"

def isRetryable : BuildError → Bool
  | client fault => fault.isRetryable
  | _ => false

def category : BuildError → String
  | unresolvedName _ | objectNotFound _ | unregisteredIntent _ => "unresolved"
  | missingClient _ => "client_missing"
  | intent .. => "intent"
  | invalidReference .. | danglingReference _ | indexOutOfRange .. | conflictingInput ..
  | tooMany _ => "structure"
  | invalidTarget _ | invalidType _ => "syntax"
  | missingSender | missingGasBudget | noGasCoins _ => "gas"
  | incomplete _ | encode _ => "encode"
  | client _ => "client"
  | internal _ => "internal"

end BuildError

end ObjectLedger
