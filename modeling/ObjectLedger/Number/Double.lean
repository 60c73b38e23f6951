/-!
# Binary floating point

Doubles as their 64 bits, with rounding, sums and order computed exactly on the fractions they stand
for. `Double.ofRatio` is the one place that rounds: to the nearest double, a tie going to the even
significand.
-/

namespace ObjectLedger

/-- A double-precision number, by its sign, exponent and fraction bits. -/
structure Double where
  /-- One sign bit, eleven exponent bits, fifty-two fraction bits. -/
  bits : UInt64
  deriving DecidableEq, Repr

namespace Double

def isNegative (x : Double) : Bool := decide (1 <<< 63 ≤ x.bits.toNat)

def exponentField (x : Double) : Nat := (x.bits.toNat >>> 52) % 2048

def fractionField (x : Double) : Nat := x.bits.toNat % (1 <<< 52)

def isFinite (x : Double) : Bool := decide (x.exponentField < 2047)

def isNaN (x : Double) : Bool := !x.isFinite && x.fractionField != 0

def isZero (x : Double) : Bool := decide (x.bits.toNat % (1 <<< 63) = 0)

/-- The significand of a finite double: its magnitude is `significand * 2 ^ scale`. -/
def significand (x : Double) : Nat :=
  if x.exponentField = 0 then x.fractionField else (1 <<< 52) + x.fractionField

/-- The power of two that scales the significand. -/
def scale (x : Double) : Int :=
  (max x.exponentField 1 : Nat) - 1075

/-- The double of a sign and a magnitude below `2 ^ 63`. -/
def ofMagnitude (negative : Bool) (magnitude : Nat) : Double :=
  ⟨UInt64.ofNat ((if negative then 1 <<< 63 else 0) + magnitude)⟩

def infinity (negative : Bool) : Double := ofMagnitude negative (2047 <<< 52)

def nan : Double := ofMagnitude false (4095 <<< 51)

def zero : Double := ⟨0⟩

/-- `n * 2 ^ k / d` rounded to the nearest natural number, a tie to the even one. -/
def roundScaled (n d : Nat) (k : Int) : Nat :=
  let num := n <<< k.toNat
  let den := d <<< (-k).toNat
  let q := num / den
  let r := num % den
  if den < 2 * r || (2 * r == den && q % 2 == 1) then q + 1 else q

/-- The double nearest to `n / d`, a tie going to the even significand. -/
def ofRatio (negative : Bool) (n d : Nat) : Double :=
  if n = 0 then ofMagnitude negative 0
  else
    let guess : Int := (n.log2 : Int) - d.log2 - 53
    let below := (n <<< (-guess).toNat) / (d <<< guess.toNat)
    let e := max (if 1 <<< 53 ≤ below then guess + 1 else guess) (-1074)
    let q := roundScaled n d (-e)
    let (q, e) := if q = 1 <<< 53 then (1 <<< 52, e + 1) else (q, e)
    if e > 971 then infinity negative
    else if q < 1 <<< 52 then ofMagnitude negative q
    else ofMagnitude negative (((e + 1075).toNat <<< 52) + (q - (1 <<< 52)))

def ofNat (n : Nat) : Double := ofRatio false n 1

def ofInt (i : Int) : Double := ofRatio (decide (i < 0)) i.natAbs 1

def ofDecimal (negative : Bool) (n : Nat) (e : Int) : Double :=
  if n = 0 then ofMagnitude negative 0
  else if e > 400 then infinity negative
  else if e < -((n.log2 : Int) + 400) then ofMagnitude negative 0
  else ofRatio negative (n * Nat.pow 10 e.toNat) (Nat.pow 10 (-e).toNat)

/-- The magnitude of a finite double as a fraction. -/
def ratio (x : Double) : Nat × Nat :=
  (x.significand <<< x.scale.toNat, 1 <<< (-x.scale).toNat)

/-- A finite double as a multiple of `2 ^ (-1074)`. -/
def units (x : Double) : Int :=
  let magnitude : Int := (x.significand <<< (x.scale + 1074).toNat : Nat)
  if x.isNegative then -magnitude else magnitude

def neg (x : Double) : Double :=
  ofMagnitude (!x.isNegative) (x.bits.toNat % (1 <<< 63))

/-- The sum, rounded once; an infinite operand decides. -/
def add (x y : Double) : Double :=
  if !x.isFinite then x
  else if !y.isFinite then y
  else
    let s := x.units + y.units
    ofRatio (decide (s < 0)) s.natAbs (1 <<< 1074)

/-- Product of magnitudes of finite doubles, rounded once. -/
def mulMagnitude (x y : Double) : Double :=
  ofRatio false (x.ratio.1 * y.ratio.1) (x.ratio.2 * y.ratio.2)

/-- Quotient of magnitudes of finite doubles, rounded once. -/
def divMagnitude (x y : Double) : Double :=
  ofRatio false (x.ratio.1 * y.ratio.2) (x.ratio.2 * y.ratio.1)

/-- Order of numbers; false as soon as one side is not a number. -/
def le (x y : Double) : Bool :=
  if x.isNaN || y.isNaN then false
  else if !x.isFinite then x.isNegative || (!y.isFinite && !y.isNegative)
  else if !y.isFinite then !y.isNegative
  else decide (x.units ≤ y.units)

end Double

end ObjectLedger
