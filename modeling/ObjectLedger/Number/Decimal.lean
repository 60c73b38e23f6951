import ObjectLedger.Number.Double

/-!
# Decimal text of doubles

A finite double is written with the fewest digits that read back as the same double, and of those
with the nearest. Layouts differ in where positional writing ends and in whether a whole number keeps
a fraction. Reading gives the double nearest to the number written.
-/

namespace ObjectLedger.Double

/-- The least power of ten, up to a bound, that lifts `n / d` to at least one. -/
def liftExponent (n d : Nat) : Nat → Nat → Nat
  | 0, j => j
  | fuel + 1, j => if d ≤ n * Nat.pow 10 j then j else liftExponent n d fuel (j + 1)

/-- The exponent of the first digit of the positive number `n / d`. -/
def leadExponent (n d : Nat) : Int :=
  if d ≤ n then ((Nat.toDigits 10 (n / d)).length : Int) - 1
  else -(liftExponent n d 330 1 : Int)

/-- Whether `c * 10 ^ k` rounds to a double of significand `m` and scale `q`; the ends of the interval
count when `m` is even. -/
def rounds (m : Nat) (q : Int) (c : Nat) (k : Int) : Bool :=
  let point := (4 * c * Nat.pow 10 k.toNat) <<< (-q).toNat
  let unit := Nat.pow 10 (-k).toNat <<< q.toNat
  let low := (if m = 1 <<< 52 ∧ -1074 < q then 4 * m - 1 else 4 * m - 2) * unit
  let high := (4 * m + 2) * unit
  if m % 2 = 0 then low ≤ point && point ≤ high else low < point && point < high

/-- Looks for `digits` digits, then for more while `fuel` lasts. -/
def shortestFrom (m : Nat) (q : Int) (n d : Nat) (lead : Int) : Nat → Nat → Nat × Int
  | 0, _ => (0, 0)
  | fuel + 1, digits =>
    let k := lead - digits + 1
    let num := n * Nat.pow 10 (-k).toNat
    let den := d * Nat.pow 10 k.toNat
    let low := num / den
    let nearLow := 2 * (num % den) ≤ den
    let first := if nearLow then low else low + 1
    let second := if nearLow then low + 1 else low
    if rounds m q first k then (first, k)
    else if rounds m q second k then (second, k)
    else shortestFrom m q n d lead fuel (digits + 1)

def dropZeros : Nat → Nat → Int → Nat × Int
  | 0, n, k => (n, k)
  | fuel + 1, n, k => if n % 10 = 0 ∧ n ≠ 0 then dropZeros fuel (n / 10) (k + 1) else (n, k)

/-- Digits and power of ten of a finite double: the fewest digits that read back. -/
def shortest (x : Double) : Nat × Int :=
  if x.significand = 0 then (0, 0)
  else
    let r := x.ratio
    let found := shortestFrom x.significand x.scale r.1 r.2 (leadExponent r.1 r.2) 17 1
    dropZeros 20 found.1 found.2

/-- How a double is laid out. -/
structure Layout where
  /-- The point may stand this far right of the first digit. -/
  whole : Option Nat
  /-- Zeros that may stand between the point and the first digit. -/
  zeros : Option Nat
  /-- Whether a whole number ends in `.0`. -/
  fraction : Bool

def signText (x : Double) : List Char := if x.isNegative then ['-'] else []

/-- A finite double in a layout; outside the positional bounds it takes an exponent. -/
def format (layout : Layout) (x : Double) : String :=
  let (n, k) := x.shortest
  let digits := Nat.toDigits 10 n
  let point : Int := digits.length + k
  let fraction := if layout.fraction then ['.', '0'] else []
  let text :=
    if n = 0 then '0' :: fraction
    else if 0 ≤ k ∧ (layout.whole.all fun bound => point ≤ bound) then
      digits ++ List.replicate k.toNat '0' ++ fraction
    else if 0 < point ∧ k < 0 ∧ (layout.whole.all fun bound => point ≤ bound) then
      digits.take point.toNat ++ '.' :: digits.drop point.toNat
    else if point ≤ 0 ∧ (layout.zeros.all fun bound => -point ≤ bound) then
      '0' :: '.' :: (List.replicate (-point).toNat '0' ++ digits)
    else
      let mantissa := match digits with
        | d :: e :: rest => d :: '.' :: e :: rest
        | short => short
      let power := point - 1
      mantissa ++ 'e' :: ((if power < 0 then ['-'] else []) ++ Nat.toDigits 10 power.natAbs)
  String.ofList (x.signText ++ text)

/-- Layout of numbers in JSON: sixteen whole digits and four leading zeros at most. -/
def jsonLayout : Layout := ⟨some 16, some 4, true⟩

/-- Positional layout whatever the size. -/
def plainLayout : Layout := ⟨none, none, false⟩

/-- Positional layout that keeps a fraction. -/
def pointLayout : Layout := ⟨none, none, true⟩

/-- Text in a positional layout, with words for the numbers that have no digits. -/
def plainText (x : Double) : String :=
  if x.isNaN then "NaN"
  else if !x.isFinite then (if x.isNegative then "-inf" else "inf")
  else x.format plainLayout

/-- The value of a word for a number that has no digits, in letters of either case. -/
def wordValue? (negative : Bool) (cs : List Char) : Option Double :=
  let word := String.ofList (cs.map Char.toLower)
  if word = "inf" ∨ word = "infinity" then some (infinity negative)
  else if word = "nan" then some nan
  else none

def readSign : List Char → Bool × List Char
  | '-' :: rest => (true, rest)
  | '+' :: rest => (false, rest)
  | rest => (false, rest)

def digitsValue (cs : List Char) : Nat := cs.foldl (fun n c => 10 * n + (c.toNat - 48)) 0

/-- The exponent that stands at the end of a number, zero if there is none. -/
def exponentValue? : List Char → Option Int
  | [] => some 0
  | c :: rest =>
    let (negative, digits) := readSign rest
    if (c = 'e' ∨ c = 'E') ∧ digits ≠ [] ∧ digits.all Char.isDigit then
      some (if negative then -(digitsValue digits : Int) else digitsValue digits)
    else none

/-- The value of digits, which a point may divide, and an exponent. -/
def numberValue? (negative : Bool) (cs : List Char) : Option Double := do
  let whole := cs.takeWhile Char.isDigit
  let (fraction, rest) := match cs.dropWhile Char.isDigit with
    | '.' :: rest => (rest.takeWhile Char.isDigit, rest.dropWhile Char.isDigit)
    | rest => ([], rest)
  if whole = [] ∧ fraction = [] then none
  else
    let exponent ← exponentValue? rest
    return ofDecimal negative (digitsValue (whole ++ fraction)) (exponent - fraction.length)

def parse? (s : String) : Option Double :=
  let (negative, cs) := readSign s.toList
  (wordValue? negative cs).or (numberValue? negative cs)

end ObjectLedger.Double
