import ObjectLedger.Json.Basic
import ObjectLedger.Text.Hex

/-!
# Reading JSON

Strict JSON: no comments, no trailing commas, no leading zeros, no unpaired surrogate, and at most 127
open brackets. A whole number in the range of 64 bits, signed or unsigned, stays exact; any other
number becomes a double through its first digits and a power of ten, each step rounded.
-/

namespace ObjectLedger.Json

def isSpace (c : Char) : Bool := c = ' ' || c = '\t' || c = '\n' || c = '\r'

/-- Brackets that may be open at once. -/
def depthLimit : Nat := 127

/-- Takes in digits while the number fits in 64 bits; also the digits left over. -/
def takeDigits (n : Nat) : List Char → Nat × List Char
  | [] => (n, [])
  | c :: rest =>
    let n' := 10 * n + (c.toNat - 48)
    if n' < UInt64.size then takeDigits n' rest else (n, c :: rest)

/-- `f * 10 ^ e` with each step rounded; nothing above the greatest double. -/
def scaleTen (f : Double) (e : Int) : Nat → Option Double
  | 0 => some Double.zero
  | fuel + 1 =>
    if e.natAbs ≤ 308 then
      let power := Double.ofNat (Nat.pow 10 e.natAbs)
      if 0 ≤ e then
        let p := f.mulMagnitude power
        if p.isFinite then some p else none
      else some (f.divMagnitude power)
    else if f.isZero then some f
    else if 0 ≤ e then none
    else scaleTen (f.divMagnitude (Double.ofNat (Nat.pow 10 308))) (e + 308) fuel

/-- The double of a number written with a fraction, an exponent or too many digits. -/
def doubleOf (negative : Bool) (whole fraction : List Char) (exponent : Option (Bool × List Char)) :
    Option Json :=
  let (n, dropped) := takeDigits 0 whole
  let (n, ignored) := takeDigits n fraction
  let start : Int := dropped.length - (fraction.length - ignored.length : Nat)
  let signed (f : Double) : Json := double (if negative then f.neg else f)
  match exponent with
  | none => (scaleTen (Double.ofNat n) start 8).map signed
  | some (negativePower, digits) =>
    let power : Nat := digits.foldl (fun n c => 10 * n + (c.toNat - 48)) 0
    if power < 1 <<< 31 then
      let e := if negativePower then start - power else start + power
      (scaleTen (Double.ofNat n) e 8).map signed
    else if n ≠ 0 ∧ !negativePower then none
    else some (signed Double.zero)

/-- The value of a whole number. -/
def wholeOf (negative : Bool) (digits : List Char) : Option Json :=
  let n : Nat := digits.foldl (fun n c => 10 * n + (c.toNat - 48)) 0
  if negative then
    if n = 0 ∨ 1 <<< 63 < n then doubleOf true digits [] none else some (integer (-n))
  else if n < UInt64.size then some (integer n)
  else doubleOf false digits [] none

/-- Digits at the front, and what follows them. -/
def spanDigits (cs : List Char) : List Char × List Char :=
  (cs.takeWhile Char.isDigit, cs.dropWhile Char.isDigit)

/-- The exponent after its letter: sign and digits. -/
def readExponent? (cs : List Char) : Option ((Bool × List Char) × List Char) :=
  let (negative, cs) := match cs with
    | '+' :: rest => (false, rest)
    | '-' :: rest => (true, rest)
    | rest => (false, rest)
  match spanDigits cs with
  | ([], _) => none
  | (digits, rest) => some ((negative, digits), rest)

def readNumber? (cs : List Char) : Option (Json × List Char) := do
  let (negative, cs) := match cs with
    | '-' :: rest => (true, rest)
    | rest => (false, rest)
  let (whole, cs) := spanDigits cs
  if whole = [] ∨ (whole.head? = some '0' ∧ whole.length ≠ 1) then none
  let fractional := match cs with
    | '.' :: rest => some (spanDigits rest)
    | _ => none
  let (fraction, cs) := fractional.getD ([], cs)
  if fractional.isSome ∧ fraction = [] then none
  match cs with
  | c :: rest =>
    if c = 'e' ∨ c = 'E' then
      let (exponent, rest) ← readExponent? rest
      return (← doubleOf negative whole fraction (some exponent), rest)
    else if fractional.isSome then return (← doubleOf negative whole fraction none, cs)
    else return (← wholeOf negative whole, cs)
  | [] =>
    if fractional.isSome then return (← doubleOf negative whole fraction none, [])
    else return (← wholeOf negative whole, [])

def readUnit? : List Char → Option (Nat × List Char)
  | a :: b :: c :: d :: rest => do
    let a ← Hex.value? a
    let b ← Hex.value? b
    let c ← Hex.value? c
    let d ← Hex.value? d
    return (4096 * a + 256 * b + 16 * c + d, rest)
  | _ => none

/-- The character of an escape after its `u`, joining a pair of surrogates. -/
def readUnicode? (cs : List Char) : Option (Char × List Char) := do
  let (unit, rest) ← readUnit? cs
  if unit < 0xD800 ∨ 0xE000 ≤ unit then return (Char.ofNat unit, rest)
  if 0xDC00 ≤ unit then none
  match rest with
  | '\\' :: 'u' :: rest =>
    let (low, rest) ← readUnit? rest
    if low < 0xDC00 ∨ 0xE000 ≤ low then none
    return (Char.ofNat (0x10000 + (unit - 0xD800) * 1024 + (low - 0xDC00)), rest)
  | _ => none

def shortEscape? (c : Char) : Option Char :=
  if c = '"' ∨ c = '\\' ∨ c = '/' then some c
  else if c = 'b' then some (Char.ofNat 8)
  else if c = 'f' then some (Char.ofNat 12)
  else if c = 'n' then some '\n'
  else if c = 'r' then some '\r'
  else if c = 't' then some '\t'
  else none

/-- The rest of a string after its opening quote; the characters so far are kept in reverse. -/
def readString? : Nat → List Char → List Char → Option (String × List Char)
  | 0, _, _ => none
  | fuel + 1, acc, cs =>
    match cs with
    | [] => none
    | '"' :: rest => some (String.ofList acc.reverse, rest)
    | '\\' :: 'u' :: rest =>
      match readUnicode? rest with
      | some (c, rest) => readString? fuel (c :: acc) rest
      | none => none
    | '\\' :: c :: rest =>
      match shortEscape? c with
      | some c => readString? fuel (c :: acc) rest
      | none => none
    | c :: rest => if c.toNat < 32 then none else readString? fuel (c :: acc) rest

def skipSpace (cs : List Char) : List Char := cs.dropWhile isSpace

mutual

/-- A value and what follows it; `depth` brackets may still be opened. -/
def readValue? : Nat → Nat → List Char → Option (Json × List Char)
  | 0, _, _ => none
  | fuel + 1, depth, cs =>
    match skipSpace cs with
    | 'n' :: 'u' :: 'l' :: 'l' :: rest => some (null, rest)
    | 't' :: 'r' :: 'u' :: 'e' :: rest => some (bool true, rest)
    | 'f' :: 'a' :: 'l' :: 's' :: 'e' :: rest => some (bool false, rest)
    | '"' :: rest => (readString? (rest.length + 1) [] rest).map fun r => (text r.1, r.2)
    | '[' :: rest =>
      if depth = 0 then none
      else match skipSpace rest with
        | ']' :: rest => some (array [], rest)
        | rest => readItems? fuel (depth - 1) [] rest
    | '\x7b' :: rest =>
      if depth = 0 then none
      else match skipSpace rest with
        | '\x7d' :: rest => some (object [], rest)
        | rest => readFields? fuel (depth - 1) [] rest
    | rest => readNumber? rest

/-- Items up to the closing bracket; those read so far are kept in reverse. -/
def readItems? : Nat → Nat → List Json → List Char → Option (Json × List Char)
  | 0, _, _, _ => none
  | fuel + 1, depth, acc, cs =>
    match readValue? fuel depth cs with
    | none => none
    | some (x, rest) =>
      match skipSpace rest with
      | ',' :: rest => readItems? fuel depth (x :: acc) rest
      | ']' :: rest => some (array (x :: acc).reverse, rest)
      | _ => none

/-- Fields up to the closing brace; those read so far are kept in reverse. -/
def readFields? : Nat → Nat → List (String × Json) → List Char → Option (Json × List Char)
  | 0, _, _, _ => none
  | fuel + 1, depth, acc, cs =>
    match skipSpace cs with
    | '"' :: rest =>
      match readString? (rest.length + 1) [] rest with
      | none => none
      | some (name, rest) =>
        match skipSpace rest with
        | ':' :: rest =>
          match readValue? fuel depth rest with
          | none => none
          | some (x, rest) =>
            match skipSpace rest with
            | ',' :: rest => readFields? fuel depth ((name, x) :: acc) rest
            | '\x7d' :: rest => some (object ((name, x) :: acc).reverse, rest)
            | _ => none
        | _ => none
    | _ => none

end

/-- The value of a whole text; each bracket and comma takes at most two steps of fuel. -/
def parse? (s : String) : Option Json :=
  let cs := s.toList
  match readValue? (2 * cs.length + 2) depthLimit cs with
  | some (j, rest) => if skipSpace rest = [] then some j else none
  | none => none

end ObjectLedger.Json
