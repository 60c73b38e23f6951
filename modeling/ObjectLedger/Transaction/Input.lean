import ObjectLedger.Ledger.Object

/-!
# Inputs of transactions

An input is a plain value in its encoded form, an object ready for the wire, or an object known by its
id and whatever else its caller declared.
-/

namespace ObjectLedger

/-- An object ready for the wire. -/
inductive ObjectArg where
  /-- Owned or immutable, at an exact version. -/
  | owned (ref : ObjectRef)
  | shared (objectId : ObjectId) (initialVersion : UInt64) (isMutable : Bool)
  /-- Sent to another object and received by the transaction. -/
  | receiving (ref : ObjectRef)
  deriving DecidableEq

namespace ObjectArg

def objectId : ObjectArg → ObjectId
  | owned ref => ref.objectId
  | shared objectId _ _ => objectId
  | receiving ref => ref.objectId

def kind : ObjectArg → String
  | owned _ => "owned"
  | shared .. => "shared"
  | receiving _ => "receiving"

end ObjectArg

/-- An object known by its id; what its caller did not declare is left open. -/
structure UnresolvedObject where
  objectId : ObjectId
  version : Option UInt64
  digest : Option Digest
  initialVersion : Option UInt64
  isMutable : Option Bool
  receiving : Bool
  deriving DecidableEq

namespace UnresolvedObject

def ofId (objectId : ObjectId) : UnresolvedObject := ⟨objectId, none, none, none, none, false⟩

def ofReceived (objectId : ObjectId) : UnresolvedObject := ⟨objectId, none, none, none, none, true⟩

/-- The reference, when the declaration fixes it. -/
def ref? (u : UnresolvedObject) : Option ObjectRef :=
  match u.version, u.digest with
  | some version, some digest => some ⟨u.objectId, version, digest⟩
  | _, _ => none

end UnresolvedObject

/-- An input of a transaction. -/
inductive Input where
  /-- A value in its encoded form. -/
  | pure (bytes : List UInt8)
  | object (arg : ObjectArg)
  | unresolved (object : UnresolvedObject)
  deriving DecidableEq

namespace Input

def objectId? : Input → Option ObjectId
  | pure _ => none
  | object arg => some arg.objectId
  | unresolved u => some u.objectId

/-- Whether the input is ready for the wire. -/
def isResolved : Input → Bool
  | unresolved _ => false
  | _ => true

end Input

instance : ToJson ObjectArg where
  toJson
    | .owned ref => .tagged "Owned" (toJson ref)
    | .shared objectId version isMutable =>
      .tagged "Shared" (.object [("object_id", toJson objectId),
        ("initial_shared_version", toJson version), ("mutable", toJson isMutable)])
    | .receiving ref => .tagged "Receiving" (toJson ref)

instance : OfJson ObjectArg where
  ofJson? j := do
    match ← j.variant? with
    | ("Owned", p) => Json.single? ObjectArg.owned p
    | ("Shared", p) =>
      Json.fields? (do
        return .shared (← Json.required Address "object_id")
          (← Json.required UInt64 "initial_shared_version") (← Json.required Bool "mutable")) p
    | ("Receiving", p) => Json.single? ObjectArg.receiving p
    | _ => none

instance : ToJson UnresolvedObject where
  toJson u := .object [("object_id", toJson u.objectId), ("version", toJson u.version),
    ("digest", toJson u.digest), ("initial_shared_version", toJson u.initialVersion),
    ("mutable", toJson u.isMutable), ("receiving", toJson u.receiving)]

instance : OfJson UnresolvedObject where
  ofJson? := Json.record? do
    return { objectId := ← Json.required Address "object_id"
             version := ← Json.optional UInt64 "version"
             digest := ← Json.optional Digest "digest"
             initialVersion := ← Json.optional UInt64 "initial_shared_version"
             isMutable := ← Json.optional Bool "mutable"
             receiving := ← Json.required Bool "receiving" }

instance : ToJson Input where
  toJson
    | .pure bytes => .tagged "Pure" (toJson bytes)
    | .object arg => .tagged "Object" (toJson arg)
    | .unresolved u => .tagged "UnresolvedObject" (toJson u)

instance : OfJson Input where
  ofJson? j := do
    match ← j.variant? with
    | ("Pure", p) => Json.single? Input.pure p
    | ("Object", p) => Json.single? Input.object p
    | ("UnresolvedObject", p) => Json.single? Input.unresolved p
    | _ => none

end ObjectLedger
