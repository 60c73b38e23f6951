import ObjectLedger.Resolve.Basic
import ObjectLedger.Table

/-!
# Objects known by their ids

An object that its caller declared in full needs no question. The others are taken from the cache, or
looked up in batches.
-/

namespace ObjectLedger

namespace UnresolvedObject

/-- The input that the declaration alone fixes. -/
def declared? (u : UnresolvedObject) : Option ObjectArg :=
  match u.initialVersion, u.receiving with
  | some version, false => some (.shared u.objectId version (u.isMutable.getD true))
  | _, _ => u.ref?.map fun ref => if u.receiving then .receiving ref else .owned ref

/-- The input that the state of the object calls for. -/
def ofInfo (u : UnresolvedObject) (info : ObjectInfo) : Except BuildError ObjectArg :=
  let sharedVersion := match info.owner with
    | .shared version => some version
    | .consensus version _ => some version
    | _ => none
  match sharedVersion, u.receiving with
  | some _, true => .error (.conflictingInput u.objectId "shared" "receiving")
  | some version, false => .ok (.shared u.objectId version (u.isMutable.getD true))
  | none, true => .ok (.receiving info.ref)
  | none, false => .ok (.owned info.ref)

end UnresolvedObject

/-- States of objects by id. -/
abbrev KnownObjects := Table ObjectId ObjectInfo

/-- An input completed from its declaration or from what is known of its object. -/
def Input.complete (known : KnownObjects) : Input → Except BuildError Input
  | .unresolved u =>
    match u.declared? with
    | some arg => .ok (.object arg)
    | none =>
      match Table.get? known u.objectId with
      | some info => (u.ofInfo info).map .object
      | none => .error (.objectNotFound u.objectId)
  | other => .ok other

/-- The ids whose objects the declarations leave open, in order. -/
def pendingIds (inputs : List Input) : List ObjectId :=
  inputs.filterMap fun
    | .unresolved u => if u.declared?.isNone then some u.objectId else none
    | _ => none

/-- Takes in the answers for ids, in order, up to the first object that does not exist. -/
def noteObjects : List (ObjectId × Option ObjectInfo) → KnownObjects →
    Except BuildError KnownObjects
  | [], known => .ok known
  | (objectId, some info) :: rest, known => noteObjects rest (Table.insert known objectId info)
  | (objectId, none) :: _, _ => .error (.objectNotFound objectId)

def fetchObjects {σ : Type} (lookup : Lookup σ) : List (List ObjectId) → KnownObjects →
    Build σ KnownObjects
  | [], known => pure known
  | batch :: rest, known => do
    let found ← Build.ask (lookup.objects batch)
    let known ← Build.ofExcept (noteObjects (batch.zip found) known)
    fetchObjects lookup rest known

def cachedObjects {σ : Type} (o : BuildOptions σ) (ids : List ObjectId) : KnownObjects :=
  match o.cache with
  | none => []
  | some cache => ids.filterMap fun objectId => (cache.object? objectId).map (objectId, ·)

/-- Completes the object inputs of a transaction. -/
def resolveObjects {σ : Type} (batch : Nat) (o : BuildOptions σ) (tx : Transaction) :
    Build σ Transaction := do
  let pending := pendingIds tx.inputs
  let cached := cachedObjects o pending
  let missing := pending.filter fun objectId => (Table.get? cached objectId).isNone
  let known ←
    if missing.isEmpty then pure cached
    else do
      let lookup ← o.requireLookup "resolve object inputs"
      let known ← fetchObjects lookup (batches batch missing) cached
      Build.count fun m => { m with objectsFetched := m.objectsFetched + missing.length }
      pure known
  let inputs ← Build.ofExcept (tx.inputs.mapM (Input.complete known))
  return { tx with inputs }

end ObjectLedger
