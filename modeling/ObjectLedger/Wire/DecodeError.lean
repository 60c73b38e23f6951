import ObjectLedger.Text.Hex

/-!
# Faults in encoded bytes

Why bytes were refused, the wording of each refusal, and its category.
-/

namespace ObjectLedger

/-- Why bytes were refused. -/
inductive DecodeError where
  /-- Fewer bytes are left than an item takes. -/
  | truncated (offset needed available : Nat)
  /-- A number in groups of seven bits that is too large or not the shortest form. -/
  | invalidUleb (offset : Nat)
  /-- A truth value other than 0 and 1. -/
  | invalidBool (offset : Nat) (value : UInt8)
  | unknownVariant (kind : String) (tag : Nat)
  | unsupportedVersion (kind : String) (version : Nat)
  | invalidUtf8 (offset : Nat)
  /-- Bytes are left over. -/
  | trailing (count : Nat)
  /-- A digest of another length than thirty-two. -/
  | digestLength (offset got : Nat)
  /-- A kind of transaction that carries no commands. -/
  | notProgrammable (tag : Nat)
  /-- A type with too many levels. -/
  | typeTooDeep
  deriving DecidableEq, Repr

namespace DecodeError

def message : DecodeError → String
  | truncated offset needed available =>
    s!"unexpected end of input at offset {offset}: needed {needed} bytes, {available} available"
  | invalidUleb offset => s!"invalid ULEB128 at offset {offset}"
  | invalidBool offset value =>
    s!"invalid boolean byte {Hex.byteLiteral value} at offset {offset}"
  | unknownVariant kind tag => s!"unknown {kind} variant {tag}"
  | unsupportedVersion kind version => s!"unsupported {kind} version {version}"
  | invalidUtf8 offset => s!"invalid utf-8 string at offset {offset}"
  | trailing count => s!"{count} trailing bytes after decoding"
  | digestLength offset got =>
    s!"invalid value: digest at offset {offset}: invalid length: expected 32 bytes, got {got}"
  | notProgrammable tag => s!"invalid value: transaction kind {tag} is not programmable"
  | typeTooDeep => "invalid value: type tag nesting too deep"

def category : DecodeError → String
  | truncated .. => "truncated"
  | invalidUleb _ => "uleb128"
  | invalidBool .. => "bool"
  | unknownVariant .. => "variant"
  | unsupportedVersion .. => "version"
  | invalidUtf8 _ => "utf8"
  | trailing _ => "trailing"
  | digestLength .. | notProgrammable _ | typeTooDeep => "invalid"

end DecodeError

end ObjectLedger
