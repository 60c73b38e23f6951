import ObjectLedger.Effects.FailureWire

/-!
# Status of execution

Whether a transaction succeeded, and the short answer for callers. The list of failures grows with the
ledger, so the short answer is read from the front of the effects, and a failure that this list does
not hold counts as one without a text.
-/

namespace ObjectLedger

/-- How execution ended. -/
inductive ExecutionStatus where
  | success
  /-- The reason, and the command that failed if it is known. -/
  | failure (error : ExecutionFailure) (command : Option UInt64)
  deriving DecidableEq

/-- The short answer: success or not, and the text of the failure if it could be read. -/
structure StatusSummary where
  success : Bool
  error : Option String
  deriving DecidableEq, Repr

namespace ExecutionStatus

def isSuccess : ExecutionStatus → Bool
  | success => true
  | failure .. => false

def summary : ExecutionStatus → StatusSummary
  | success => ⟨true, none⟩
  | failure error _ => ⟨false, some error.render⟩

end ExecutionStatus

instance : ToJson ExecutionStatus where
  toJson
    | .success => .text "Success"
    | .failure error command =>
      .tagged "Failure" (.object [("error", toJson error), ("command", toJson command)])

instance : OfJson ExecutionStatus where
  ofJson? j := do
    match ← j.variant? with
    | ("Success", p) => Json.unit? .success p
    | ("Failure", p) =>
      Json.fields? (do
        return .failure (← Json.required ExecutionFailure "error")
          (← Json.optional UInt64 "command")) p
    | _ => none

instance : ToJson StatusSummary where
  toJson s := .object [("success", toJson s.success), ("error", toJson s.error)]

namespace Wire

def executionStatus : ExecutionStatus → Bytes
  | .success => variant 0
  | .failure error command => variant 1 ++ executionFailure error ++ option u64 command

namespace Reader

def executionStatus : Reader ExecutionStatus := do
  match ← variant with
  | 0 => return .success
  | 1 =>
    let error ← executionFailure
    return .failure error (← option u64)
  | tag => fail (.unknownVariant "ExecutionStatus" tag)

/-- The version of effects: the first or the second layout. -/
def effectsVersion : Reader Nat := do
  let tag ← variant
  if tag = 0 ∨ tag = 1 then return tag else fail (.unknownVariant "TransactionEffects" tag)

/-- Success or failure alone, whatever the details. -/
def opaqueStatus : Reader StatusSummary := do
  match ← variant with
  | 0 => return ⟨true, none⟩
  | 1 => return ⟨false, none⟩
  | tag => fail (.unknownVariant "ExecutionStatus" tag)

end Reader

end Wire

/-- The short answer at the front of effects, without reading the rest. -/
def statusOf (effects : List UInt8) : Except DecodeError StatusSummary :=
  match Wire.Reader.effectsVersion.run (.start effects) with
  | (.error e, _) => .error e
  | (.ok _, c) =>
    match Wire.Reader.executionStatus.run c with
    | (.ok status, _) => .ok status.summary
    | (.error _, _) => (Wire.Reader.opaqueStatus.run c).1

end ObjectLedger
