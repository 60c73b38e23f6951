import ObjectLedger.Hash.Sha512

/-!
# Ed25519

Keys and signatures over the twisted Edwards curve of the prime `2 ^ 255 - 19`. A secret of thirty-two
bytes fixes the public key and, with a message, the signature.
-/

namespace ObjectLedger.Ed25519

def prime : Nat := (1 <<< 255) - 19

def order : Nat := (1 <<< 252) + 27742317777372353535851937790883648493

/-- `b ^ e` modulo the prime, by the bits of the exponent; the fuel bounds their number. -/
def power : Nat → Nat → Nat → Nat → Nat
  | 0, acc, _, _ => acc
  | fuel + 1, acc, b, e =>
    if e = 0 then acc
    else power fuel (if e % 2 = 1 then acc * b % prime else acc) (b * b % prime) (e / 2)

def inverse (x : Nat) : Nat := power 256 1 x (prime - 2)

def curveConstant : Nat := (prime - 121665) * inverse 121666 % prime

/-- A point in extended coordinates: `x = X / Z`, `y = Y / Z` and `x * y = T / Z`. -/
structure Point where
  x : Nat
  y : Nat
  z : Nat
  t : Nat

def Point.neutral : Point := ⟨0, 1, 1, 0⟩

def Point.base : Point :=
  let x := 15112221349535400772501151409588531511454012693041857206046113283949847762202
  let y := 46316835694926478169428394003475163141307993866256225615783033603165251855960
  ⟨x, y, 1, x * y % prime⟩

/-- The sum of two points; `constant` is that of the curve. -/
def Point.add (constant : Nat) (p q : Point) : Point :=
  let a := (p.y + prime - p.x) * (q.y + prime - q.x) % prime
  let b := (p.y + p.x) * (q.y + q.x) % prime
  let c := 2 * p.t * q.t % prime * constant % prime
  let d := 2 * p.z * q.z % prime
  let e := b + prime - a
  let f := d + prime - c
  let g := d + c
  let h := b + a
  ⟨e * f % prime, g * h % prime, f * g % prime, e * h % prime⟩

/-- A multiple of a point, by the bits of the scalar; the fuel bounds their number. -/
def Point.times (constant : Nat) : Nat → Point → Point → Nat → Point
  | 0, acc, _, _ => acc
  | fuel + 1, acc, p, n =>
    if n = 0 then acc
    else
      Point.times constant fuel (if n % 2 = 1 then acc.add constant p else acc) (p.add constant p)
        (n / 2)

/-- The thirty-two bytes of a point: `y`, with the parity of `x` in the top bit. -/
def Point.encode (p : Point) : List UInt8 :=
  let z := inverse p.z
  let x := p.x * z % prime
  let y := p.y * z % prime
  littleEndian 32 (y + if x % 2 = 1 then 1 <<< 255 else 0)

/-- The bytes of a multiple of the base point. -/
def multiple (n : Nat) : List UInt8 :=
  (Point.times curveConstant 256 .neutral .base n).encode

/-- The scalar and the nonce seed of a secret. -/
def expand (secret : List UInt8) : Nat × List UInt8 :=
  let h := Sha512.hash secret
  let n := ofLittleEndian (h.take 32)
  (n % (1 <<< 254) / 8 * 8 + (1 <<< 254), h.drop 32)

def publicKey (secret : List UInt8) : List UInt8 := multiple (expand secret).1

/-- The signature of a message: a commitment and a response, thirty-two bytes each. -/
def sign (secret message : List UInt8) : List UInt8 :=
  let (scalar, seed) := expand secret
  let nonce := ofLittleEndian (Sha512.hash (seed ++ message)) % order
  let commitment := multiple nonce
  let challenge := ofLittleEndian (Sha512.hash (commitment ++ multiple scalar ++ message)) % order
  commitment ++ littleEndian 32 ((nonce + challenge * scalar) % order)

end ObjectLedger.Ed25519
