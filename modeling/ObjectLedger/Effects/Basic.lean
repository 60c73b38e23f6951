import ObjectLedger.Effects.Status

/-!
# Effects of transactions

What a transaction did: how it ended, what it cost, and each object it created, changed or removed.
-/

namespace ObjectLedger

/-- What a transaction cost, by part. -/
structure GasCost where
  computation : UInt64 := 0
  storage : UInt64 := 0
  rebate : UInt64 := 0
  nonRefundable : UInt64 := 0
  deriving DecidableEq

/-- The net charge; negative when the rebate is greater than the cost. -/
def GasCost.net (g : GasCost) : Int :=
  (g.computation.toNat : Int) + g.storage.toNat - g.rebate.toNat

/-- An object before the transaction. -/
inductive ObjectIn where
  | absent
  | present (version : UInt64) (digest : Digest) (owner : Owner)
  deriving DecidableEq

/-- An object after the transaction. -/
inductive ObjectOut where
  | absent
  /-- Written at the version that the transaction gives to all it writes. -/
  | object (digest : Digest) (owner : Owner)
  /-- A package with a version of its own. -/
  | package (version : UInt64) (digest : Digest)
  deriving DecidableEq

/-- What happened to the id of an object. -/
inductive IdOperation where
  | none
  | created
  | deleted
  deriving DecidableEq

/-- An object before and after the transaction. -/
structure ObjectChange where
  input : ObjectIn
  output : ObjectOut
  idOperation : IdOperation
  deriving DecidableEq

/-- A shared object that was read or missed, but not changed. -/
inductive UnchangedShared where
  | readOnlyRoot (version : UInt64) (digest : Digest)
  | mutateDeleted (version : UInt64)
  | readDeleted (version : UInt64)
  | cancelled (version : UInt64)
  | perEpochConfig
  deriving DecidableEq

/-- What happened to an object. -/
inductive ObjectOperation where
  | created
  | mutated
  | unwrapped
  | deleted
  | wrapped
  | unwrappedThenDeleted
  deriving DecidableEq, Repr

/-- Whether the object is gone from the top level afterwards. -/
def ObjectOperation.isRemoval : ObjectOperation → Bool
  | deleted | wrapped | unwrappedThenDeleted => true
  | created | mutated | unwrapped => false

/-- What became of an object. -/
structure ChangedObject where
  objectId : ObjectId
  /-- The new version, or the last one of an object that is gone. -/
  version : UInt64
  digest : Option Digest
  owner : Option Owner
  operation : ObjectOperation
  deriving DecidableEq

/-- The new reference, if there is one. -/
def ChangedObject.ref? (c : ChangedObject) : Option ObjectRef :=
  c.digest.map fun digest => ⟨c.objectId, c.version, digest⟩

/-- What a transaction did. -/
structure Effects where
  status : ExecutionStatus
  executedEpoch : UInt64
  gasUsed : GasCost
  transactionDigest : Digest
  /-- The place of the coin that paid among the changed objects. -/
  gasObjectIndex : Option UInt32
  eventsDigest : Option Digest
  dependencies : List Digest
  /-- The version given to every object written. -/
  lamportVersion : UInt64
  changedObjects : List (ObjectId × ObjectChange)
  unchangedShared : List (ObjectId × UnchangedShared)
  auxDataDigest : Option Digest
  deriving DecidableEq

/-- What happened to an object, by its states and the operation on its id. -/
def ObjectChange.operation (c : ObjectChange) : ObjectOperation :=
  match c.input, c.output, c.idOperation with
  | .absent, .absent, .deleted => .unwrappedThenDeleted
  | .present .., .absent, .deleted => .deleted
  | _, .absent, _ => .wrapped
  | .absent, _, .created => .created
  | .absent, _, _ => .unwrapped
  | .present .., _, _ => .mutated

namespace Effects

/-- What became of an object of the effects. -/
def classify (e : Effects) (objectId : ObjectId) (change : ObjectChange) : ChangedObject :=
  let operation := change.operation
  match change.output with
  | .object digest owner => ⟨objectId, e.lamportVersion, some digest, some owner, operation⟩
  | .package version digest => ⟨objectId, version, some digest, some .immutable, operation⟩
  | .absent =>
    let version := match change.input with
      | .present version _ _ => version
      | .absent => e.lamportVersion
    ⟨objectId, version, none, none, operation⟩

/-- What became of each object, in order. -/
def changed (e : Effects) : List ChangedObject :=
  e.changedObjects.map fun entry => e.classify entry.1 entry.2

/-- The new reference and owner of the object that paid, if it was written. -/
def feeObject (e : Effects) : Option (ObjectRef × Owner) := do
  let index ← e.gasObjectIndex
  let (objectId, change) ← e.changedObjects[index.toNat]?
  match change.output with
  | .object digest owner => some (⟨objectId, e.lamportVersion, digest⟩, owner)
  | _ => none

/-- The effects of a transaction that spent its fee object alone, which stays with its owner. -/
def ofFee (transactionDigest : Digest) (fee : ObjectRef) (newDigest : Digest) (owner : Address)
    (lamportVersion : UInt64) : Effects where
  status := .success
  executedEpoch := 0
  gasUsed := {}
  transactionDigest
  gasObjectIndex := some 0
  eventsDigest := none
  dependencies := []
  lamportVersion
  changedObjects := [(fee.objectId,
    ⟨.present fee.version fee.digest (.address owner), .object newDigest (.address owner), .none⟩)]
  unchangedShared := []
  auxDataDigest := none

end Effects

instance : ToJson GasCost where
  toJson g := .object [("computation_cost", toJson g.computation), ("storage_cost", toJson g.storage),
    ("storage_rebate", toJson g.rebate), ("non_refundable_storage_fee", toJson g.nonRefundable)]

instance : OfJson GasCost where
  ofJson? := Json.record? do
    return { computation := ← Json.required UInt64 "computation_cost"
             storage := ← Json.required UInt64 "storage_cost"
             rebate := ← Json.required UInt64 "storage_rebate"
             nonRefundable := ← Json.required UInt64 "non_refundable_storage_fee" }

instance : ToJson ObjectIn where
  toJson
    | .absent => .text "NotExist"
    | .present version digest owner =>
      .tagged "Exist" (.object [("version", toJson version), ("digest", toJson digest),
        ("owner", toJson owner)])

instance : OfJson ObjectIn where
  ofJson? j := do
    match ← j.variant? with
    | ("NotExist", p) => Json.unit? .absent p
    | ("Exist", p) =>
      Json.fields? (do
        return .present (← Json.required UInt64 "version") (← Json.required Digest "digest")
          (← Json.required Owner "owner")) p
    | _ => none

instance : ToJson ObjectOut where
  toJson
    | .absent => .text "NotExist"
    | .object digest owner =>
      .tagged "ObjectWrite" (.object [("digest", toJson digest), ("owner", toJson owner)])
    | .package version digest =>
      .tagged "PackageWrite" (.object [("version", toJson version), ("digest", toJson digest)])

instance : OfJson ObjectOut where
  ofJson? j := do
    match ← j.variant? with
    | ("NotExist", p) => Json.unit? .absent p
    | ("ObjectWrite", p) =>
      Json.fields? (do
        return .object (← Json.required Digest "digest") (← Json.required Owner "owner")) p
    | ("PackageWrite", p) =>
      Json.fields? (do
        return .package (← Json.required UInt64 "version") (← Json.required Digest "digest")) p
    | _ => none

instance : ToJson IdOperation where
  toJson
    | .none => .text "None"
    | .created => .text "Created"
    | .deleted => .text "Deleted"

instance : OfJson IdOperation where
  ofJson? j := do
    match ← j.variant? with
    | ("None", p) => Json.unit? .none p
    | ("Created", p) => Json.unit? .created p
    | ("Deleted", p) => Json.unit? .deleted p
    | _ => failure

instance : ToJson ObjectChange where
  toJson c := .object [("input_state", toJson c.input), ("output_state", toJson c.output),
    ("id_operation", toJson c.idOperation)]

instance : OfJson ObjectChange where
  ofJson? := Json.record? do
    return { input := ← Json.required ObjectIn "input_state"
             output := ← Json.required ObjectOut "output_state"
             idOperation := ← Json.required IdOperation "id_operation" }

instance : ToJson UnchangedShared where
  toJson
    | .readOnlyRoot version digest =>
      .tagged "ReadOnlyRoot" (.object [("version", toJson version), ("digest", toJson digest)])
    | .mutateDeleted version => .tagged "MutateDeleted" (toJson version)
    | .readDeleted version => .tagged "ReadDeleted" (toJson version)
    | .cancelled version => .tagged "Cancelled" (toJson version)
    | .perEpochConfig => .text "PerEpochConfig"

instance : OfJson UnchangedShared where
  ofJson? j := do
    match ← j.variant? with
    | ("ReadOnlyRoot", p) =>
      Json.fields? (do
        return .readOnlyRoot (← Json.required UInt64 "version")
          (← Json.required Digest "digest")) p
    | ("MutateDeleted", p) => Json.single? UnchangedShared.mutateDeleted p
    | ("ReadDeleted", p) => Json.single? UnchangedShared.readDeleted p
    | ("Cancelled", p) => Json.single? UnchangedShared.cancelled p
    | ("PerEpochConfig", p) => Json.unit? .perEpochConfig p
    | _ => none

instance : ToJson ObjectOperation where
  toJson
    | .created => .text "Created"
    | .mutated => .text "Mutated"
    | .unwrapped => .text "Unwrapped"
    | .deleted => .text "Deleted"
    | .wrapped => .text "Wrapped"
    | .unwrappedThenDeleted => .text "UnwrappedThenDeleted"

instance : ToJson ChangedObject where
  toJson c := .object [("object_id", toJson c.objectId), ("version", toJson c.version),
    ("digest", toJson c.digest), ("owner", toJson c.owner), ("operation", toJson c.operation)]

instance : ToJson Effects where
  toJson e := .object [("status", toJson e.status), ("executed_epoch", toJson e.executedEpoch),
    ("gas_used", toJson e.gasUsed), ("transaction_digest", toJson e.transactionDigest),
    ("gas_object_index", toJson e.gasObjectIndex), ("events_digest", toJson e.eventsDigest),
    ("dependencies", toJson e.dependencies), ("lamport_version", toJson e.lamportVersion),
    ("changed_objects", toJson e.changedObjects),
    ("unchanged_shared_objects", toJson e.unchangedShared),
    ("aux_data_digest", toJson e.auxDataDigest)]

instance : OfJson Effects where
  ofJson? := Json.record? do
    return { status := ← Json.required ExecutionStatus "status"
             executedEpoch := ← Json.required UInt64 "executed_epoch"
             gasUsed := ← Json.required GasCost "gas_used"
             transactionDigest := ← Json.required Digest "transaction_digest"
             gasObjectIndex := ← Json.optional UInt32 "gas_object_index"
             eventsDigest := ← Json.optional Digest "events_digest"
             dependencies := ← Json.required (List Digest) "dependencies"
             lamportVersion := ← Json.required UInt64 "lamport_version"
             changedObjects := ← Json.required (List (Address × ObjectChange)) "changed_objects"
             unchangedShared :=
               ← Json.required (List (Address × UnchangedShared)) "unchanged_shared_objects"
             auxDataDigest := ← Json.optional Digest "aux_data_digest" }

end ObjectLedger
