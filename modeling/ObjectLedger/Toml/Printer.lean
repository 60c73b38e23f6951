import ObjectLedger.Number.Decimal
import ObjectLedger.Text.Hex
import ObjectLedger.Toml.Basic

/-!
# Writing TOML scalars

A string takes the plainest of the four notations that needs no escape: on one line in double quotes,
then in single quotes, then over lines in double and in single quotes. If none will do it is escaped.
-/

namespace ObjectLedger.Toml

/-- Whether a character is a control other than tab and line end. -/
def isHardControl (c : Char) : Bool := (c.toNat < 0x20 && c != '\t' && c != '\n') || c.toNat == 0x7F

def longestRun (c : Char) : Nat → List Char → Nat
  | run, [] => run
  | run, d :: rest => if d = c then max (run + 1) (longestRun c (run + 1) rest)
    else max run (longestRun c 0 rest)

def escapeChar (c : Char) : List Char :=
  match c with
  | '\x08' => ['\\', 'b']
  | '\t' => ['\\', 't']
  | '\n' => ['\\', 'n']
  | '\x0c' => ['\\', 'f']
  | '\r' => ['\\', 'r']
  | '"' => ['\\', '"']
  | '\\' => ['\\', '\\']
  | c =>
    let digits := (Nat.toDigits 16 c.toNat).map Char.toUpper
    '\\' :: 'u' :: (List.replicate (4 - digits.length) '0' ++ digits)

/-- Text in double quotes; over lines, line ends and up to two quotes in a row stand as they are. -/
def escaped (overLines : Bool) : Nat → List Char → List Char
  | _, [] => []
  | quotes, c :: rest =>
    if c = '"' then
      if overLines ∧ quotes < 2 then c :: escaped overLines (quotes + 1) rest
      else escapeChar c ++ escaped overLines 0 rest
    else if (c = '\n' ∧ overLines) ∨ ¬(c.toNat < 0x20 ∨ c = '\\' ∨ c.toNat = 0x7F) then
      c :: escaped overLines 0 rest
    else escapeChar c ++ escaped overLines 0 rest

def quoted (s : String) : String :=
  let cs := s.toList
  let hard := cs.any isHardControl
  let long := cs.contains '\n'
  let slash := cs.contains '\\'
  let doubles := longestRun '"' 0 cs
  let singles := longestRun '\'' 0 cs
  let three (q : Char) := List.replicate 3 q
  String.ofList <|
    if !hard && !slash && doubles = 0 && !long then '"' :: (escaped false 0 cs ++ ['"'])
    else if !hard && singles = 0 && !long then '\'' :: (cs ++ ['\''])
    else if !hard && !slash && doubles ≤ 2 then
      three '"' ++ '\n' :: (escaped true 0 cs ++ three '"')
    else if !hard && singles ≤ 2 then three '\'' ++ '\n' :: (cs ++ three '\'')
    else if long then three '"' ++ '\n' :: (escaped true 0 cs ++ three '"')
    else '"' :: (escaped false 0 cs ++ ['"'])

/-- A double, with a fraction however large. -/
def doubleText (x : Double) : String :=
  if x.isNaN then (if x.isNegative then "-nan" else "nan")
  else if !x.isFinite then (if x.isNegative then "-inf" else "inf")
  else x.format Double.pointLayout

/-- An integer, which has to fit in 64 bits with a sign. -/
def natText? (n : Nat) : Option String := if n < 1 <<< 63 then some s!"{n}" else none

end ObjectLedger.Toml
