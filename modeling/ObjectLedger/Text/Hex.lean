/-!
# Hexadecimal text

Bytes as pairs of digits, high half first. Digits are read in either case and written in lower case.
-/

namespace ObjectLedger.Hex

/-- The digit of a value below sixteen, in lower case. -/
def digit (n : Nat) : Char :=
  if n < 10 then Char.ofNat (n + 48) else Char.ofNat (n + 87)

def value? (c : Char) : Option Nat :=
  if '0' ≤ c ∧ c ≤ '9' then some (c.toNat - 48)
  else if 'a' ≤ c ∧ c ≤ 'f' then some (c.toNat - 87)
  else if 'A' ≤ c ∧ c ≤ 'F' then some (c.toNat - 55)
  else none

def ofByte (b : UInt8) : List Char :=
  [digit (b.toNat / 16), digit (b.toNat % 16)]

def encode (bytes : List UInt8) : List Char :=
  bytes.flatMap ofByte

/-- Reads pairs of digits; refuses an odd count and any other character. -/
def decode? : List Char → Option (List UInt8)
  | [] => some []
  | [_] => none
  | hi :: lo :: rest =>
    match value? hi, value? lo, decode? rest with
    | some h, some l, some bytes => some (UInt8.ofNat (16 * h + l) :: bytes)
    | _, _, _ => none

def text (bytes : List UInt8) : String :=
  String.ofList (encode bytes)

def bytes? (s : String) : Option (List UInt8) :=
  decode? s.toList

/-- A value below 256 as `0x` and two digits. -/
def byteLiteral (b : UInt8) : String :=
  String.ofList ('0' :: 'x' :: ofByte b)

end ObjectLedger.Hex
