/-!
# Base 58

The number that the bytes spell, written with an alphabet that leaves out `0`, `O`, `I` and `l`. A
leading zero byte is written as `1`, so the text keeps the byte count.
-/

namespace ObjectLedger.Base58

def alphabet : List Char :=
  "123456789ABCDEFGHJKLMNPQRSTUVWXYZabcdefghijkmnopqrstuvwxyz".toList

def digit (n : Nat) : Char :=
  alphabet.getD n '1'

def value? (c : Char) : Option Nat :=
  alphabet.findIdx? (· == c)

/-- The digits of a number in a base, most significant first; zero has none. -/
def digits (base : Nat) (n : Nat) : List Nat :=
  go (n + 1).log2.succ n []
where
  /-- Prepends the digits of `n`; the fuel bounds their number. -/
  go : Nat → Nat → List Nat → List Nat
    | 0, _, acc => acc
    | fuel + 1, n, acc => if n = 0 then acc else go fuel (n / base) (n % base :: acc)

def number (base : Nat) (ds : List Nat) : Nat :=
  ds.foldl (fun n d => base * n + d) 0

def encode (bytes : List UInt8) : List Char :=
  let zeros := (bytes.takeWhile (· == 0)).length
  List.replicate zeros '1' ++ (digits 58 (number 256 (bytes.map UInt8.toNat))).map digit

/-- The bytes of a text; refuses a character outside the alphabet. -/
def decode? (text : List Char) : Option (List UInt8) := do
  let values ← text.mapM value?
  let zeros := (text.takeWhile (· == '1')).length
  return List.replicate zeros 0 ++ (digits 256 (number 58 values)).map UInt8.ofNat

def text (bytes : List UInt8) : String :=
  String.ofList (encode bytes)

end ObjectLedger.Base58
