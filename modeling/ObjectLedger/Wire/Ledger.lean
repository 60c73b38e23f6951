import ObjectLedger.Ledger.Object
import ObjectLedger.Wire.Cursor
import ObjectLedger.Wire.Write

/-!
# Addresses, digests, references and owners on the wire

An address is its thirty-two bytes, a digest the same behind a length, a reference an id, a version and
a digest, an owner a variant.
-/

namespace ObjectLedger.Wire

def address (a : Address) : Bytes := a.bytes

def digest (d : Digest) : Bytes := bytes d.bytes

def objectRef (r : ObjectRef) : Bytes := address r.objectId ++ u64 r.version ++ digest r.digest

def owner : Owner → Bytes
  | .address a => variant 0 ++ address a
  | .object a => variant 1 ++ address a
  | .shared version => variant 2 ++ u64 version
  | .immutable => variant 3
  | .consensus version a => variant 4 ++ u64 version ++ address a

namespace Reader

def bytes32 : Reader Bytes32 := do
  let start ← offset
  let bs ← take 32
  match Bytes32.ofBytes? bs with
  | some value => return value
  | none => fail (.truncated start 32 bs.length)

def address : Reader Address := do return ⟨← bytes32⟩

/-- A digest behind its length, which has to be thirty-two. -/
def digest : Reader Digest := do
  let start ← offset
  let bs ← bytes
  match Bytes32.ofBytes? bs with
  | some value => return ⟨value⟩
  | none => fail (.digestLength start bs.length)

def objectRef : Reader ObjectRef := do
  let objectId ← address
  let version ← u64
  let digest ← digest
  return { objectId, version, digest }

def owner : Reader Owner := do
  match ← variant with
  | 0 => return .address (← address)
  | 1 => return .object (← address)
  | 2 => return .shared (← u64)
  | 3 => return .immutable
  | 4 =>
    let version ← u64
    return .consensus version (← address)
  | tag => fail (.unknownVariant "Owner" tag)

end Reader

end ObjectLedger.Wire
