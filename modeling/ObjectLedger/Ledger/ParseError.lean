/-!
# Faults in the text of identifiers

Why an address, a digest or a type was refused, and the wording of each refusal.
-/

namespace ObjectLedger

/-- What is wrong with the spelling of a type. -/
inductive SpellingFault where
  /-- Nothing stands where a type should. -/
  | missingType
  /-- A bracket is missing. -/
  | missing (symbol : Char)
  /-- A path that is not an address, a module and a name. -/
  | malformedPath
  /-- The first part of a path is not an address. -/
  | badAddress
  /-- A module or a name is not an identifier. -/
  | badIdentifier
  /-- Neither a comma nor a closing bracket follows a parameter. -/
  | missingSeparator
  /-- Text is left over after the type. -/
  | trailing
  deriving DecidableEq, Repr

def SpellingFault.message : SpellingFault → String
  | missingType => "expected a type"
  | missing symbol => s!"expected '{symbol}'"
  | malformedPath => "struct type must be address::module::Name"
  | badAddress => "invalid address"
  | badIdentifier => "invalid identifier"
  | missingSeparator => "expected ',' or '>'"
  | trailing => "unexpected trailing input"

/-- Why the text or the bytes of an identifier were refused. -/
inductive ParseError where
  | invalidHex (input : String)
  | addressTooLong (input : String)
  | invalidBase58 (input : String)
  | invalidLength (got : Nat)
  /-- A fault at a byte offset of the input. -/
  | invalidType (input : String) (fault : SpellingFault) (position : Nat)
  /-- A type that is not a struct, where a struct is wanted. -/
  | notStruct (input : String)
  deriving DecidableEq, Repr

def ParseError.message : ParseError → String
  | invalidHex input => s!"invalid hex address '{input}'"
  | addressTooLong input => s!"address '{input}' is longer than 32 bytes"
  | invalidBase58 input => s!"invalid base58 digest '{input}'"
  | invalidLength got => s!"invalid length: expected 32 bytes, got {got}"
  | invalidType input fault position =>
    s!"invalid type tag '{input}': {fault.message} at position {position}"
  | notStruct input => s!"invalid type tag '{input}': expected a struct type"

end ObjectLedger
