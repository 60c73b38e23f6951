import ObjectLedger.Number.Endian
import ObjectLedger.Text.Utf8

/-!
# Writing the wire format

Fixed-width numbers with the least significant byte first, lengths and variant tags in groups of seven
bits, optional values behind a 0 or a 1, sequences behind their length. Each writer gives the bytes it
appends.
-/

namespace ObjectLedger.Wire

/-- Bytes on the wire. -/
abbrev Bytes := List UInt8

/-- Groups of seven bits, least significant first; a set top bit says that another one follows. The
first argument bounds the number of groups after the first. -/
def ulebGroups : Nat → Nat → Bytes
  | 0, n => [UInt8.ofNat n]
  | fuel + 1, n =>
    if n < 128 then [UInt8.ofNat n] else UInt8.ofNat (n % 128 + 128) :: ulebGroups fuel (n / 128)

/-- A number in as few groups as it takes. -/
def uleb (n : Nat) : Bytes := ulebGroups n n

def u8 (n : UInt8) : Bytes := [n]

def u16 (n : UInt16) : Bytes := littleEndian 2 n.toNat

def u32 (n : UInt32) : Bytes := littleEndian 4 n.toNat

def u64 (n : UInt64) : Bytes := littleEndian 8 n.toNat

def u128 (n : BitVec 128) : Bytes := littleEndian 16 n.toNat

def bool (b : Bool) : Bytes := [if b then 1 else 0]

def length (n : Nat) : Bytes := uleb n

def variant (tag : Nat) : Bytes := uleb tag

def bytes (bs : Bytes) : Bytes := length bs.length ++ bs

def string (s : String) : Bytes := bytes (utf8Bytes s)

def option {α : Type} (write : α → Bytes) : Option α → Bytes
  | none => [0]
  | some x => 1 :: write x

def seq {α : Type} (write : α → Bytes) (xs : List α) : Bytes :=
  length xs.length ++ xs.flatMap write

end ObjectLedger.Wire
