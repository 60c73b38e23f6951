import ObjectLedger.Json.Record
import ObjectLedger.Ledger.ParseError
import ObjectLedger.Number.Endian
import ObjectLedger.Text.Blank
import ObjectLedger.Text.Hex

/-!
# Addresses

Thirty-two bytes, written as `0x` and sixty-four digits. Object ids are addresses. Reading takes short
forms: the digits are padded with zeros on the left.
-/

namespace ObjectLedger

/-- A string of thirty-two bytes. -/
structure Bytes32 where
  bytes : List UInt8
  length_bytes : bytes.length = 32
  deriving DecidableEq

namespace Bytes32

/-- Some bytes, if there are thirty-two. -/
def ofBytes? (bytes : List UInt8) : Option Bytes32 :=
  if h : bytes.length = 32 then some ⟨bytes, h⟩ else none

/-- The last thirty-two bytes of a list, with zeros in front of a shorter one. -/
def ofTail (bytes : List UInt8) : Bytes32 :=
  ⟨(List.replicate 32 0 ++ bytes).drop bytes.length, by
    rw [List.length_drop, List.length_append, List.length_replicate]; omega⟩

def zero : Bytes32 := ofTail []

end Bytes32

/-- An account address or an object id. -/
structure Address where
  value : Bytes32
  deriving DecidableEq

/-- Object ids are addresses. -/
abbrev ObjectId := Address

namespace Address

def bytes (a : Address) : List UInt8 := a.value.bytes

def ofBytes (bytes : List UInt8) : Except ParseError Address :=
  match Bytes32.ofBytes? bytes with
  | some value => .ok ⟨value⟩
  | none => .error (.invalidLength bytes.length)

/-- The address of a small number, big-endian. -/
def ofUInt64 (n : UInt64) : Address :=
  ⟨.ofTail (bigEndian 8 n.toNat)⟩

def zero : Address := ⟨.zero⟩

instance : Inhabited Address := ⟨zero⟩

/-- Cuts one `0x` or `0X` off the front. -/
def dropMarker : List Char → List Char
  | '0' :: 'x' :: rest => rest
  | '0' :: 'X' :: rest => rest
  | digits => digits

/-- Bytes that a text takes in UTF-8. -/
def utf8Length (s : List Char) : Nat := s.foldl (fun n c => n + c.utf8Size) 0

/-- Reads an address from hexadecimal text between white space. The length is judged first, in bytes,
then the digits. -/
def parse (input : String) : Except ParseError Address :=
  let digits := dropMarker (trimBlank input.toList)
  if digits = [] then .error (.invalidHex input)
  else if 64 < utf8Length digits then .error (.addressTooLong input)
  else
    match Hex.decode? (List.replicate (64 - digits.length) '0' ++ digits) with
    | some bytes =>
      match Bytes32.ofBytes? bytes with
      | some value => .ok ⟨value⟩
      | none => .error (.invalidHex input)
    | none => .error (.invalidHex input)

/-- The full text of an address, as characters. -/
def chars (a : Address) : List Char := '0' :: 'x' :: Hex.encode a.bytes

def text (a : Address) : String := String.ofList a.chars

/-- The text that shows an address inside another value. -/
def display (a : Address) : String := s!"Address({a.text})"

/-- Byte order. -/
def le (a b : Address) : Bool := decide (a.bytes ≤ b.bytes)

end Address

instance : ToString Address := ⟨Address.text⟩
instance : ToJson Address := ⟨fun a => .text a.text⟩

instance : OfJson Address where
  ofJson?
    | .text s => (Address.parse s).toOption
    | _ => none

end ObjectLedger
