import ObjectLedger.Number.Endian
import ObjectLedger.Text.Utf8
import ObjectLedger.Wire.DecodeError

/-!
# Reading the wire format

A cursor holds the bytes not yet read and how many were. A read gives a value or a fault, and the
cursor after it; a fault leaves the cursor where reading stopped, so that one can go on from there.
Each number has one accepted spelling: the shortest.
-/

namespace ObjectLedger.Wire

/-- How far reading has come. -/
structure Cursor where
  offset : Nat
  rest : List UInt8
  deriving DecidableEq, Repr

def Cursor.start (bytes : List UInt8) : Cursor := ⟨0, bytes⟩

def Cursor.remaining (c : Cursor) : Nat := c.rest.length

/-- A read from a cursor. -/
def Reader (α : Type) : Type := Cursor → Except DecodeError α × Cursor

namespace Reader

/-- The outcome of a read and the cursor after it. -/
def run {α : Type} (r : Reader α) (c : Cursor) : Except DecodeError α × Cursor := r c

@[always_inline, inline] def pure {α : Type} (a : α) : Reader α := fun c => (.ok a, c)

@[always_inline, inline] def bind {α β : Type} (r : Reader α) (next : α → Reader β) : Reader β :=
  fun c =>
    match r c with
    | (.ok a, c) => next a c
    | (.error e, c) => (.error e, c)

instance : Monad Reader where
  pure := Reader.pure
  bind := Reader.bind

def fail {α : Type} (e : DecodeError) : Reader α := fun c => (.error e, c)

def offset : Reader Nat := fun c => (.ok c.offset, c)

def take (count : Nat) : Reader (List UInt8) := fun c =>
  let front := c.rest.take count
  if front.length = count then (.ok front, ⟨c.offset + count, c.rest.drop count⟩)
  else (.error (.truncated c.offset count c.remaining), c)

def u8 : Reader UInt8 := fun c =>
  match c.rest with
  | b :: rest => (.ok b, ⟨c.offset + 1, rest⟩)
  | [] => (.error (.truncated c.offset 1 0), c)

/-- A number of a fixed width, as a natural number. -/
def number (width : Nat) : Reader Nat := do return ofLittleEndian (← take width)

def u16 : Reader UInt16 := do return UInt16.ofNat (← number 2)

def u32 : Reader UInt32 := do return UInt32.ofNat (← number 4)

def u64 : Reader UInt64 := do return UInt64.ofNat (← number 8)

def u128 : Reader (BitVec 128) := do return BitVec.ofNat 128 (← number 16)

/-- A truth value: 0 or 1. -/
def bool : Reader Bool := do
  let start ← offset
  let b ← u8
  if b = 0 then return false
  else if b = 1 then return true
  else fail (.invalidBool start b)

/-- Groups of seven bits from a shift on; the fuel bounds their number. -/
def groups (start : Nat) : Nat → Nat → Nat → Reader Nat
  | 0, _, _ => fail (.invalidUleb start)
  | fuel + 1, shift, value => do
    let b ← u8
    let payload := b.toNat % 128
    if 64 ≤ shift ∨ (shift = 63 ∧ 1 < payload) then fail (.invalidUleb start)
    else
      let value := value + payload <<< shift
      if b.toNat < 128 then
        if b = 0 ∧ 0 < shift then fail (.invalidUleb start) else return value
      else groups start fuel (shift + 7) value

/-- A number below `2 ^ 64` in groups of seven bits, in its shortest form. -/
def uleb : Reader Nat := do groups (← offset) 11 0 0

/-- A number below `2 ^ 32` in groups of seven bits. -/
def uleb32 : Reader Nat := do
  let start ← offset
  let n ← uleb
  if UInt32.size ≤ n then fail (.invalidUleb start) else return n

/-- A length, no greater than the number of bytes that follow it. -/
def length : Reader Nat := do
  let start ← offset
  let n ← uleb32
  fun c =>
    if (c.rest.take n).length < n then (.error (.truncated start n c.remaining), c) else (.ok n, c)

def variant : Reader Nat := uleb32

def bytes : Reader (List UInt8) := do take (← length)

def string : Reader String := do
  let start ← offset
  let bs ← bytes
  match utf8String? bs with
  | some s => return s
  | none => fail (.invalidUtf8 start)

def option {α : Type} (read : Reader α) : Reader (Option α) := do
  if ← bool then return some (← read) else return none

/-- A number of values; those read so far are kept in reverse. -/
def times {α : Type} (read : Reader α) : Nat → List α → Reader (List α)
  | 0, acc, c => (.ok acc.reverse, c)
  | count + 1, acc, c =>
    match read c with
    | (.ok x, c) => times read count (x :: acc) c
    | (.error e, c) => (.error e, c)

def seq {α : Type} (read : Reader α) : Reader (List α) := do times read (← length) []

/-- Refuses bytes that are left over. -/
def finish : Reader Unit := fun c =>
  if c.rest.isEmpty then (.ok (), c) else (.error (.trailing c.remaining), c)

/-- Reads a value that takes up all of some bytes. -/
def decode {α : Type} (r : Reader α) (bs : List UInt8) : Except DecodeError α :=
  (do let a ← r; finish; return a : Reader α).run (.start bs) |>.1

end Reader

end ObjectLedger.Wire
