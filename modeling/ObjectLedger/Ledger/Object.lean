import ObjectLedger.Ledger.Digest

/-!
# Objects

A reference names one version of an object, and an owner says who may use it.
-/

namespace ObjectLedger

/-- One version of an object. -/
structure ObjectRef where
  objectId : ObjectId
  version : UInt64
  digest : Digest
  deriving DecidableEq

/-- Who may use an object. -/
inductive Owner where
  | address (owner : Address)
  | object (owner : Address)
  | shared (initialVersion : UInt64)
  | immutable
  | consensus (startVersion : UInt64) (owner : Address)
  deriving DecidableEq

namespace Owner

/-- The address that alone may use the object, if there is one. -/
def address? : Owner → Option Address
  | address owner => some owner
  | consensus _ owner => some owner
  | _ => none

/-- Whether an address alone may use the object. -/
def isOwnedBy (owner : Owner) (a : Address) : Bool := decide (owner.address? = some a)

def isShared : Owner → Bool
  | shared _ => true
  | _ => false

end Owner

instance : ToJson ObjectRef where
  toJson r := .object [("object_id", toJson r.objectId), ("version", toJson r.version),
    ("digest", toJson r.digest)]

instance : OfJson ObjectRef where
  ofJson? := Json.record? do
    return { objectId := ← Json.required Address "object_id"
             version := ← Json.required UInt64 "version"
             digest := ← Json.required Digest "digest" }

instance : ToJson Owner where
  toJson
    | .address owner => .tagged "AddressOwner" (toJson owner)
    | .object owner => .tagged "ObjectOwner" (toJson owner)
    | .shared version => .tagged "Shared" (.object [("initial_shared_version", toJson version)])
    | .immutable => .text "Immutable"
    | .consensus version owner =>
      .tagged "ConsensusAddressOwner" (.object [("start_version", toJson version),
        ("owner", toJson owner)])

instance : OfJson Owner where
  ofJson? j := do
    match ← j.variant? with
    | ("AddressOwner", p) => Json.single? Owner.address p
    | ("ObjectOwner", p) => Json.single? Owner.object p
    | ("Shared", p) =>
      Json.fields? (do return .shared (← Json.required UInt64 "initial_shared_version")) p
    | ("Immutable", p) => Json.unit? .immutable p
    | ("ConsensusAddressOwner", p) =>
      Json.fields? (do
        return .consensus (← Json.required UInt64 "start_version")
          (← Json.required Address "owner")) p
    | _ => none

end ObjectLedger
