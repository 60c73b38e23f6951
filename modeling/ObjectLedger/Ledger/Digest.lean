import ObjectLedger.Ledger.Address
import ObjectLedger.Text.Base58

/-!
# Digests

Thirty-two bytes of a hash, written in base 58.
-/

namespace ObjectLedger

/-- Digest of an object, a transaction or its events. -/
structure Digest where
  value : Bytes32
  deriving DecidableEq

namespace Digest

def bytes (d : Digest) : List UInt8 := d.value.bytes

def ofBytes (bytes : List UInt8) : Except ParseError Digest :=
  match Bytes32.ofBytes? bytes with
  | some value => .ok ⟨value⟩
  | none => .error (.invalidLength bytes.length)

/-- Reads a digest from base-58 text between white space. -/
def parse (input : String) : Except ParseError Digest :=
  match Base58.decode? (trimBlank input.toList) with
  | some bytes => ofBytes bytes
  | none => .error (.invalidBase58 input)

def text (d : Digest) : String := Base58.text d.bytes

/-- The text that shows a digest inside another value. -/
def display (d : Digest) : String := s!"Digest({d.text})"

end Digest

instance : ToString Digest := ⟨Digest.text⟩
instance : ToJson Digest := ⟨fun d => .text d.text⟩

instance : OfJson Digest where
  ofJson?
    | .text s => (Digest.parse s).toOption
    | _ => none

end ObjectLedger
