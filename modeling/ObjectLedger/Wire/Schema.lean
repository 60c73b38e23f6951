import ObjectLedger.Wire.Ledger

/-!
# Schemas

A schema describes a layout on the wire. It fixes the type of its values, how they are written and how
they are read, by recursion on the schema.
-/

namespace ObjectLedger.Wire

/-- A layout on the wire. -/
inductive Schema where
  | u8
  | u16
  | u32
  | u64
  | u128
  | bool
  /-- A number below `2 ^ 64` in groups of seven bits. -/
  | uleb
  /-- The length of something that follows. -/
  | length
  | variant
  /-- Bytes behind their length. -/
  | bytes
  /-- Bytes without a length. -/
  | fixed (count : Nat)
  | string
  | address
  | digest
  | objectRef
  | owner
  | option (item : Schema)
  | seq (item : Schema)
  deriving DecidableEq, Repr

namespace Schema

/-- The values of a schema. -/
abbrev Value : Schema → Type
  | u8 => UInt8
  | u16 => UInt16
  | u32 => UInt32
  | u64 => UInt64
  | u128 => BitVec 128
  | bool => Bool
  | uleb | length | variant => Nat
  | bytes | fixed _ => List UInt8
  | string => String
  | address => Address
  | digest => Digest
  | objectRef => ObjectRef
  | owner => Owner
  | option item => Option item.Value
  | seq item => List item.Value

def write : (s : Schema) → s.Value → Bytes
  | u8, n => Wire.u8 n
  | u16, n => Wire.u16 n
  | u32, n => Wire.u32 n
  | u64, n => Wire.u64 n
  | u128, n => Wire.u128 n
  | bool, b => Wire.bool b
  | uleb, n => Wire.uleb n
  | length, n => Wire.length n
  | variant, n => Wire.variant n
  | bytes, bs => Wire.bytes bs
  | fixed _, bs => bs
  | string, s => Wire.string s
  | address, a => Wire.address a
  | digest, d => Wire.digest d
  | objectRef, r => Wire.objectRef r
  | owner, o => Wire.owner o
  | option item, x => Wire.option item.write x
  | seq item, xs => Wire.seq item.write xs

def read : (s : Schema) → Reader s.Value
  | u8 => Reader.u8
  | u16 => Reader.u16
  | u32 => Reader.u32
  | u64 => Reader.u64
  | u128 => Reader.u128
  | bool => Reader.bool
  | uleb => Reader.uleb
  | length => Reader.length
  | variant => Reader.variant
  | bytes => Reader.bytes
  | fixed count => Reader.take count
  | string => Reader.string
  | address => Reader.address
  | digest => Reader.digest
  | objectRef => Reader.objectRef
  | owner => Reader.owner
  | option item => Reader.option item.read
  | seq item => Reader.seq item.read

end Schema

end ObjectLedger.Wire
