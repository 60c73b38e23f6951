import ObjectLedger.Effects.Basic

/-!
# Effects on the wire

The second layout of effects is written and read in full; of the first one only the status is read.
-/

namespace ObjectLedger

namespace Wire

def objectIn : ObjectIn → Bytes
  | .absent => variant 0
  | .present version d o => variant 1 ++ u64 version ++ digest d ++ owner o

def objectOut : ObjectOut → Bytes
  | .absent => variant 0
  | .object d o => variant 1 ++ digest d ++ owner o
  | .package version d => variant 2 ++ u64 version ++ digest d

def idOperation : IdOperation → Bytes
  | .none => variant 0
  | .created => variant 1
  | .deleted => variant 2

def objectChange (c : ObjectChange) : Bytes :=
  objectIn c.input ++ objectOut c.output ++ idOperation c.idOperation

def unchangedShared : UnchangedShared → Bytes
  | .readOnlyRoot version d => variant 0 ++ u64 version ++ digest d
  | .mutateDeleted version => variant 1 ++ u64 version
  | .readDeleted version => variant 2 ++ u64 version
  | .cancelled version => variant 3 ++ u64 version
  | .perEpochConfig => variant 4

def gasCost (g : GasCost) : Bytes :=
  u64 g.computation ++ u64 g.storage ++ u64 g.rebate ++ u64 g.nonRefundable

namespace Reader

def objectIn : Reader ObjectIn := do
  match ← variant with
  | 0 => return .absent
  | 1 =>
    let version ← u64
    let digest ← digest
    return .present version digest (← owner)
  | tag => fail (.unknownVariant "ObjectIn" tag)

def objectOut : Reader ObjectOut := do
  match ← variant with
  | 0 => return .absent
  | 1 =>
    let digest ← digest
    return .object digest (← owner)
  | 2 =>
    let version ← u64
    return .package version (← digest)
  | tag => fail (.unknownVariant "ObjectOut" tag)

def idOperation : Reader IdOperation := do
  match ← variant with
  | 0 => return .none
  | 1 => return .created
  | 2 => return .deleted
  | tag => fail (.unknownVariant "IDOperation" tag)

def objectChange : Reader ObjectChange := do
  let input ← objectIn
  let output ← objectOut
  let idOperation ← idOperation
  return { input, output, idOperation }

def unchangedShared : Reader UnchangedShared := do
  match ← variant with
  | 0 =>
    let version ← u64
    return .readOnlyRoot version (← digest)
  | 1 => return .mutateDeleted (← u64)
  | 2 => return .readDeleted (← u64)
  | 3 => return .cancelled (← u64)
  | 4 => return .perEpochConfig
  | tag => fail (.unknownVariant "UnchangedSharedKind" tag)

def gasCost : Reader GasCost := do
  let computation ← u64
  let storage ← u64
  let rebate ← u64
  let nonRefundable ← u64
  return { computation, storage, rebate, nonRefundable }

/-- An id with what belongs to it. -/
def keyed {α : Type} (read : Reader α) : Reader (ObjectId × α) := do
  let objectId ← address
  return (objectId, ← read)

/-- Effects in the second layout. -/
def effects : Reader Effects := do
  match ← variant with
  | 1 =>
    let status ← executionStatus
    let executedEpoch ← u64
    let gasUsed ← gasCost
    let transactionDigest ← digest
    let gasObjectIndex ← option u32
    let eventsDigest ← option digest
    let dependencies ← seq digest
    let lamportVersion ← u64
    let changedObjects ← seq (keyed objectChange)
    let unchangedShared ← seq (keyed unchangedShared)
    let auxDataDigest ← option digest
    return { status, executedEpoch, gasUsed, transactionDigest, gasObjectIndex, eventsDigest,
             dependencies, lamportVersion, changedObjects, unchangedShared, auxDataDigest }
  | 0 => fail (.unsupportedVersion "TransactionEffects" 1)
  | tag => fail (.unknownVariant "TransactionEffects" tag)

end Reader

end Wire

namespace Effects

open Wire

def encode (e : Effects) : List UInt8 :=
  variant 1 ++ executionStatus e.status ++ u64 e.executedEpoch ++ gasCost e.gasUsed ++
    digest e.transactionDigest ++ option u32 e.gasObjectIndex ++ option digest e.eventsDigest ++
    seq digest e.dependencies ++ u64 e.lamportVersion ++
    seq (fun entry => address entry.1 ++ objectChange entry.2) e.changedObjects ++
    seq (fun entry => address entry.1 ++ Wire.unchangedShared entry.2) e.unchangedShared ++
    option digest e.auxDataDigest

def decode (bytes : List UInt8) : Except DecodeError Effects :=
  Reader.effects.decode bytes

end Effects

end ObjectLedger
