/-!
# Base 64

Three bytes as four digits of the standard alphabet, the last group padded with `=`. Reading is
strict: padding is required and the bits it leaves over are zero, so each text of bytes is unique.
-/

namespace ObjectLedger.Base64

def alphabet : List Char :=
  "ABCDEFGHIJKLMNOPQRSTUVWXYZabcdefghijklmnopqrstuvwxyz0123456789+/".toList

def digit (n : Nat) : Char :=
  alphabet.getD n 'A'

def value? (c : Char) : Option Nat :=
  if 'A' ≤ c ∧ c ≤ 'Z' then some (c.toNat - 65)
  else if 'a' ≤ c ∧ c ≤ 'z' then some (c.toNat - 71)
  else if '0' ≤ c ∧ c ≤ '9' then some (c.toNat + 4)
  else if c = '+' then some 62
  else if c = '/' then some 63
  else none

def encode : List UInt8 → List Char
  | [] => []
  | [a] => [digit (a.toNat / 4), digit (a.toNat % 4 * 16), '=', '=']
  | [a, b] =>
    [digit (a.toNat / 4), digit (a.toNat % 4 * 16 + b.toNat / 16), digit (b.toNat % 16 * 4), '=']
  | a :: b :: c :: rest =>
    digit (a.toNat / 4) :: digit (a.toNat % 4 * 16 + b.toNat / 16) ::
      digit (b.toNat % 16 * 4 + c.toNat / 64) :: digit (c.toNat % 64) :: encode rest

/-- The last group of four: one, two or three bytes, with no bit left over. -/
def lastGroup? (a b c d : Char) : Option (List UInt8) := do
  let w ← value? a
  let x ← value? b
  let first := UInt8.ofNat (w * 4 + x / 16)
  if c = '=' then
    if d = '=' ∧ x % 16 = 0 then some [first] else none
  else
    let y ← value? c
    let second := UInt8.ofNat (x % 16 * 16 + y / 4)
    if d = '=' then
      if y % 4 = 0 then some [first, second] else none
    else
      let z ← value? d
      some [first, second, UInt8.ofNat (y % 4 * 64 + z)]

def decode? : List Char → Option (List UInt8)
  | [] => some []
  | [a, b, c, d] => lastGroup? a b c d
  | a :: b :: c :: d :: rest =>
    match value? a, value? b, value? c, value? d, decode? rest with
    | some w, some x, some y, some z, some bytes =>
      some (UInt8.ofNat (w * 4 + x / 16) :: UInt8.ofNat (x % 16 * 16 + y / 4) ::
        UInt8.ofNat (y % 4 * 64 + z) :: bytes)
    | _, _, _, _, _ => none
  | _ => none

def text (bytes : List UInt8) : String :=
  String.ofList (encode bytes)

def bytes? (s : String) : Option (List UInt8) :=
  decode? s.toList

end ObjectLedger.Base64
