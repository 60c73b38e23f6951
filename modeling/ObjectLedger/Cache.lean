import ObjectLedger.Client.Basic
import ObjectLedger.Effects.Basic
import ObjectLedger.Table

/-!
# The object cache

One table for several kinds of keys, kept apart by scope, and a slot for the coin that pays next. An
object lives in the scope that its owner calls for, and in no other.
-/

namespace ObjectLedger

/-- A name space of keys. -/
inductive CacheScope where
  /-- Objects that an address or another object owns alone. -/
  | ownedObject
  | sharedOrImmutableObject
  | packageName
  | custom (name : String)
  deriving DecidableEq, Repr

/-- What a key stands for. -/
inductive CacheEntry where
  | object (info : ObjectInfo)
  | address (address : Address)
  | value (value : Json)
  deriving DecidableEq

namespace CacheEntry

def object? : CacheEntry → Option ObjectInfo
  | object info => some info
  | _ => none

def address? : CacheEntry → Option Address
  | address a => some a
  | _ => none

end CacheEntry

/-- A key with its scope. -/
abbrev CacheKey := CacheScope × String

/-- Entries by key, and the coin that pays next. -/
structure ObjectCache where
  entries : Table CacheKey CacheEntry := []
  feeObject : Option ObjectRef := none
  deriving DecidableEq

def Owner.scope : Owner → CacheScope
  | address _ | object _ => .ownedObject
  | shared _ | immutable | consensus .. => .sharedOrImmutableObject

namespace ObjectCache

def empty : ObjectCache := {}

/-- Number of entries; the slot does not count. -/
def size (c : ObjectCache) : Nat := c.entries.length

def get? (c : ObjectCache) (scope : CacheScope) (key : String) : Option CacheEntry :=
  Table.get? c.entries (scope, key)

def erase (c : ObjectCache) (scope : CacheScope) (key : String) : ObjectCache :=
  { c with entries := Table.erase c.entries (scope, key) }

/-- The cache with an entry for a key, in place of any other. -/
def insert (c : ObjectCache) (scope : CacheScope) (key : String) (value : CacheEntry) :
    ObjectCache :=
  { c with entries := Table.insert c.entries (scope, key) value }

/-- The state of an object, in whichever scope it has an entry; that of owned objects comes first. -/
def object? (c : ObjectCache) (objectId : ObjectId) : Option ObjectInfo :=
  ((c.get? .ownedObject objectId.text).or (c.get? .sharedOrImmutableObject objectId.text)).bind
    CacheEntry.object?

def eraseObject (c : ObjectCache) (objectId : ObjectId) : ObjectCache :=
  (c.erase .ownedObject objectId.text).erase .sharedOrImmutableObject objectId.text

/-- The cache with an object in the scope of its owner. -/
def insertObject (c : ObjectCache) (info : ObjectInfo) : ObjectCache :=
  (c.eraseObject info.ref.objectId).insert info.owner.scope info.ref.objectId.text (.object info)

def package? (c : ObjectCache) (name : String) : Option Address :=
  (c.get? .packageName name).bind CacheEntry.address?

/-- The cache with the address of a named package. -/
def insertPackage (c : ObjectCache) (name : String) (a : Address) : ObjectCache :=
  c.insert .packageName name (.address a)

/-- The cache with another coin to pay next, or none. -/
def withFee (c : ObjectCache) (fee : Option ObjectRef) : ObjectCache := { c with feeObject := fee }

/-- The cache after what became of an object. -/
def applyChange (c : ObjectCache) (change : ChangedObject) : ObjectCache :=
  if change.operation.isRemoval then c.eraseObject change.objectId
  else
    match change.ref?, change.owner with
    | some ref, some owner => c.insertObject ⟨ref, owner⟩
    | _, _ => c.eraseObject change.objectId

/-- The coin that pays next after effects: the one that paid, while its owner keeps it. -/
def nextFee (e : Effects) (owner : Address) : Option ObjectRef :=
  match e.feeObject with
  | some (ref, feeOwner) => if feeOwner.isOwnedBy owner then some ref else none
  | none => none

def applyEffects (c : ObjectCache) (e : Effects) (owner : Address) : ObjectCache :=
  (e.changed.foldl applyChange c).withFee (nextFee e owner)

end ObjectCache

instance : OfJson CacheScope where
  ofJson? j := do
    match ← j.variant? with
    | ("OwnedObject", p) => Json.unit? .ownedObject p
    | ("SharedOrImmutableObject", p) => Json.unit? .sharedOrImmutableObject p
    | ("PackageName", p) => Json.unit? .packageName p
    | ("Custom", p) => Json.single? CacheScope.custom p
    | _ => none

instance : ToJson CacheEntry where
  toJson
    | .object info => .tagged "Object" (toJson info)
    | .address a => .tagged "Address" (toJson a)
    | .value v => .tagged "Value" v

instance : OfJson CacheEntry where
  ofJson? j := do
    match ← j.variant? with
    | ("Object", p) => Json.single? CacheEntry.object p
    | ("Address", p) => Json.single? CacheEntry.address p
    | ("Value", p) => Json.single? CacheEntry.value p
    | _ => none

end ObjectLedger
