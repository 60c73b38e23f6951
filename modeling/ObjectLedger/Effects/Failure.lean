import ObjectLedger.Json.Printer
import ObjectLedger.Ledger.Object

/-!
# Failures of execution

Why the ledger stopped a transaction, with the JSON form of each reason and its text for callers:
the name of the reason, and its details as compact JSON in parentheses when it has any.
-/

namespace ObjectLedger

/-- A module of a package. -/
structure ModuleId where
  address : Address
  name : String
  deriving DecidableEq

/-- Where in the code execution stopped. -/
structure CodeLocation where
  module : ModuleId
  function : UInt16
  instruction : UInt16
  functionName : Option String
  deriving DecidableEq

/-- What is wrong with an argument of a command. -/
inductive ArgumentFault where
  | typeMismatch
  | invalidBCSBytes
  | invalidUsageOfPureArg
  | invalidArgumentToPrivateEntryFunction
  | indexOutOfBounds (index : UInt16)
  | secondaryIndexOutOfBounds (result : UInt16) (secondary : UInt16)
  | invalidResultArity (result : UInt16)
  | invalidGasCoinUsage
  | invalidValueUsage
  | invalidObjectByValue
  | invalidObjectByMutRef
  | sharedObjectOperationNotAllowed
  | invalidArgumentArity
  deriving DecidableEq

/-- What is wrong with a type argument of a call. -/
inductive TypeArgumentFault where
  | typeNotFound
  | constraintNotSatisfied
  deriving DecidableEq

/-- Why a package could not be upgraded. -/
inductive UpgradeFault where
  | unableToFetchPackage (package : Address)
  | notAPackage (object : Address)
  | incompatibleUpgrade
  | digestDoesNotMatch (digest : List UInt8)
  | unknownUpgradePolicy (policy : UInt8)
  | packageIDDoesNotMatch (package : Address) (ticket : Address)
  deriving DecidableEq

/-- Why a transaction failed. -/
inductive ExecutionFailure where
  | insufficientGas
  | invalidGasObject
  | invariantViolation
  | featureNotYetSupported
  | moveObjectTooBig (size : UInt64) (maximum : UInt64)
  | movePackageTooBig (size : UInt64) (maximum : UInt64)
  | circularObjectOwnership (object : Address)
  | insufficientCoinBalance
  | coinBalanceOverflow
  | publishErrorNonZeroAddress
  | suiMoveVerificationError
  | movePrimitiveRuntimeError (location : Option CodeLocation)
  | moveAbort (location : CodeLocation) (code : UInt64)
  | vmVerificationOrDeserializationError
  | vmInvariantViolation
  | functionNotFound
  | arityMismatch
  | typeArityMismatch
  | nonEntryFunctionInvoked
  | commandArgumentError (index : UInt16) (fault : ArgumentFault)
  | typeArgumentError (index : UInt16) (fault : TypeArgumentFault)
  | unusedValueWithoutDrop (result : UInt16) (secondary : UInt16)
  | invalidPublicFunctionReturnType (index : UInt16)
  | invalidTransferObject
  | effectsTooLarge (size : UInt64) (maximum : UInt64)
  | publishUpgradeMissingDependency
  | publishUpgradeDependencyDowngrade
  | packageUpgradeError (fault : UpgradeFault)
  | writtenObjectsTooLarge (size : UInt64) (maximum : UInt64)
  | certificateDenied
  | suiMoveVerificationTimedout
  | sharedObjectOperationNotAllowed
  | inputObjectDeleted
  | executionCancelledDueToSharedObjectCongestion (objects : List Address)
  | addressDeniedForCoin (account : Address) (coinType : String)
  | coinTypeGlobalPause (coinType : String)
  | executionCancelledDueToRandomnessUnavailable
  | moveVectorElemTooBig (size : UInt64) (maximum : UInt64)
  | moveRawValueTooBig (size : UInt64) (maximum : UInt64)
  | invalidLinkage
  deriving DecidableEq

instance : ToJson ModuleId where
  toJson m := .object [("address", toJson m.address), ("name", toJson m.name)]

instance : OfJson ModuleId where
  ofJson? := Json.record? do
    return { address := ← Json.required Address "address", name := ← Json.required String "name" }

instance : ToJson CodeLocation where
  toJson l := .object [("module", toJson l.module), ("function", toJson l.function),
    ("instruction", toJson l.instruction), ("functionName", toJson l.functionName)]

instance : OfJson CodeLocation where
  ofJson? := Json.record? do
    return { module := ← Json.required ModuleId "module"
             function := ← Json.required UInt16 "function"
             instruction := ← Json.required UInt16 "instruction"
             functionName := ← Json.optional String "functionName" }

instance : ToJson ArgumentFault where
  toJson
    | .typeMismatch => .text "TypeMismatch"
    | .invalidBCSBytes => .text "InvalidBCSBytes"
    | .invalidUsageOfPureArg => .text "InvalidUsageOfPureArg"
    | .invalidArgumentToPrivateEntryFunction => .text "InvalidArgumentToPrivateEntryFunction"
    | .indexOutOfBounds index => .tagged "IndexOutOfBounds" (.object [("idx", toJson index)])
    | .secondaryIndexOutOfBounds result secondary =>
      .tagged "SecondaryIndexOutOfBounds"
        (.object [("resultIdx", toJson result), ("secondaryIdx", toJson secondary)])
    | .invalidResultArity result =>
      .tagged "InvalidResultArity" (.object [("resultIdx", toJson result)])
    | .invalidGasCoinUsage => .text "InvalidGasCoinUsage"
    | .invalidValueUsage => .text "InvalidValueUsage"
    | .invalidObjectByValue => .text "InvalidObjectByValue"
    | .invalidObjectByMutRef => .text "InvalidObjectByMutRef"
    | .sharedObjectOperationNotAllowed => .text "SharedObjectOperationNotAllowed"
    | .invalidArgumentArity => .text "InvalidArgumentArity"

instance : OfJson ArgumentFault where
  ofJson? j := do
    match ← j.variant? with
    | ("TypeMismatch", p) => Json.unit? .typeMismatch p
    | ("InvalidBCSBytes", p) => Json.unit? .invalidBCSBytes p
    | ("InvalidUsageOfPureArg", p) => Json.unit? .invalidUsageOfPureArg p
    | ("InvalidArgumentToPrivateEntryFunction", p) =>
      Json.unit? .invalidArgumentToPrivateEntryFunction p
    | ("IndexOutOfBounds", p) =>
      Json.fields? (do return .indexOutOfBounds (← Json.required UInt16 "idx")) p
    | ("SecondaryIndexOutOfBounds", p) =>
      Json.fields? (do
        return .secondaryIndexOutOfBounds (← Json.required UInt16 "resultIdx")
          (← Json.required UInt16 "secondaryIdx")) p
    | ("InvalidResultArity", p) =>
      Json.fields? (do return .invalidResultArity (← Json.required UInt16 "resultIdx")) p
    | ("InvalidGasCoinUsage", p) => Json.unit? .invalidGasCoinUsage p
    | ("InvalidValueUsage", p) => Json.unit? .invalidValueUsage p
    | ("InvalidObjectByValue", p) => Json.unit? .invalidObjectByValue p
    | ("InvalidObjectByMutRef", p) => Json.unit? .invalidObjectByMutRef p
    | ("SharedObjectOperationNotAllowed", p) => Json.unit? .sharedObjectOperationNotAllowed p
    | ("InvalidArgumentArity", p) => Json.unit? .invalidArgumentArity p
    | _ => none

instance : ToJson TypeArgumentFault where
  toJson
    | .typeNotFound => .text "TypeNotFound"
    | .constraintNotSatisfied => .text "ConstraintNotSatisfied"

instance : OfJson TypeArgumentFault where
  ofJson? j := do
    match ← j.variant? with
    | ("TypeNotFound", p) => Json.unit? .typeNotFound p
    | ("ConstraintNotSatisfied", p) => Json.unit? .constraintNotSatisfied p
    | _ => none

instance : ToJson UpgradeFault where
  toJson
    | .unableToFetchPackage package =>
      .tagged "UnableToFetchPackage" (.object [("packageId", toJson package)])
    | .notAPackage object => .tagged "NotAPackage" (.object [("objectId", toJson object)])
    | .incompatibleUpgrade => .text "IncompatibleUpgrade"
    | .digestDoesNotMatch digest =>
      .tagged "DigestDoesNotMatch" (.object [("digest", toJson digest)])
    | .unknownUpgradePolicy policy =>
      .tagged "UnknownUpgradePolicy" (.object [("policy", toJson policy)])
    | .packageIDDoesNotMatch package ticket =>
      .tagged "PackageIDDoesNotMatch"
        (.object [("packageId", toJson package), ("ticketId", toJson ticket)])

instance : OfJson UpgradeFault where
  ofJson? j := do
    match ← j.variant? with
    | ("UnableToFetchPackage", p) =>
      Json.fields? (do return .unableToFetchPackage (← Json.required Address "packageId")) p
    | ("NotAPackage", p) =>
      Json.fields? (do return .notAPackage (← Json.required Address "objectId")) p
    | ("IncompatibleUpgrade", p) => Json.unit? .incompatibleUpgrade p
    | ("DigestDoesNotMatch", p) =>
      Json.fields? (do return .digestDoesNotMatch (← Json.required (List UInt8) "digest")) p
    | ("UnknownUpgradePolicy", p) =>
      Json.fields? (do return .unknownUpgradePolicy (← Json.required UInt8 "policy")) p
    | ("PackageIDDoesNotMatch", p) =>
      Json.fields? (do
        return .packageIDDoesNotMatch (← Json.required Address "packageId")
          (← Json.required Address "ticketId")) p
    | _ => none

instance : ToJson ExecutionFailure where
  toJson
    | .insufficientGas => .text "InsufficientGas"
    | .invalidGasObject => .text "InvalidGasObject"
    | .invariantViolation => .text "InvariantViolation"
    | .featureNotYetSupported => .text "FeatureNotYetSupported"
    | .moveObjectTooBig size maximum =>
      .tagged "MoveObjectTooBig"
        (.object [("objectSize", toJson size), ("maxObjectSize", toJson maximum)])
    | .movePackageTooBig size maximum =>
      .tagged "MovePackageTooBig"
        (.object [("objectSize", toJson size), ("maxObjectSize", toJson maximum)])
    | .circularObjectOwnership object =>
      .tagged "CircularObjectOwnership" (.object [("object", toJson object)])
    | .insufficientCoinBalance => .text "InsufficientCoinBalance"
    | .coinBalanceOverflow => .text "CoinBalanceOverflow"
    | .publishErrorNonZeroAddress => .text "PublishErrorNonZeroAddress"
    | .suiMoveVerificationError => .text "SuiMoveVerificationError"
    | .movePrimitiveRuntimeError location => .tagged "MovePrimitiveRuntimeError" (toJson location)
    | .moveAbort location code => .tagged "MoveAbort" (toJson (location, code))
    | .vmVerificationOrDeserializationError => .text "VMVerificationOrDeserializationError"
    | .vmInvariantViolation => .text "VMInvariantViolation"
    | .functionNotFound => .text "FunctionNotFound"
    | .arityMismatch => .text "ArityMismatch"
    | .typeArityMismatch => .text "TypeArityMismatch"
    | .nonEntryFunctionInvoked => .text "NonEntryFunctionInvoked"
    | .commandArgumentError index fault =>
      .tagged "CommandArgumentError" (.object [("argIdx", toJson index), ("kind", toJson fault)])
    | .typeArgumentError index fault =>
      .tagged "TypeArgumentError" (.object [("argumentIdx", toJson index), ("kind", toJson fault)])
    | .unusedValueWithoutDrop result secondary =>
      .tagged "UnusedValueWithoutDrop"
        (.object [("resultIdx", toJson result), ("secondaryIdx", toJson secondary)])
    | .invalidPublicFunctionReturnType index =>
      .tagged "InvalidPublicFunctionReturnType" (.object [("idx", toJson index)])
    | .invalidTransferObject => .text "InvalidTransferObject"
    | .effectsTooLarge size maximum =>
      .tagged "EffectsTooLarge"
        (.object [("currentSize", toJson size), ("maxSize", toJson maximum)])
    | .publishUpgradeMissingDependency => .text "PublishUpgradeMissingDependency"
    | .publishUpgradeDependencyDowngrade => .text "PublishUpgradeDependencyDowngrade"
    | .packageUpgradeError fault =>
      .tagged "PackageUpgradeError" (.object [("upgradeError", toJson fault)])
    | .writtenObjectsTooLarge size maximum =>
      .tagged "WrittenObjectsTooLarge"
        (.object [("currentSize", toJson size), ("maxSize", toJson maximum)])
    | .certificateDenied => .text "CertificateDenied"
    | .suiMoveVerificationTimedout => .text "SuiMoveVerificationTimedout"
    | .sharedObjectOperationNotAllowed => .text "SharedObjectOperationNotAllowed"
    | .inputObjectDeleted => .text "InputObjectDeleted"
    | .executionCancelledDueToSharedObjectCongestion objects =>
      .tagged "ExecutionCancelledDueToSharedObjectCongestion"
        (.object [("congestedObjects", toJson objects)])
    | .addressDeniedForCoin account coinType =>
      .tagged "AddressDeniedForCoin"
        (.object [("address", toJson account), ("coinType", toJson coinType)])
    | .coinTypeGlobalPause coinType =>
      .tagged "CoinTypeGlobalPause" (.object [("coinType", toJson coinType)])
    | .executionCancelledDueToRandomnessUnavailable =>
      .text "ExecutionCancelledDueToRandomnessUnavailable"
    | .moveVectorElemTooBig size maximum =>
      .tagged "MoveVectorElemTooBig"
        (.object [("valueSize", toJson size), ("maxScaledSize", toJson maximum)])
    | .moveRawValueTooBig size maximum =>
      .tagged "MoveRawValueTooBig"
        (.object [("valueSize", toJson size), ("maxScaledSize", toJson maximum)])
    | .invalidLinkage => .text "InvalidLinkage"

instance : OfJson ExecutionFailure where
  ofJson? j := do
    match ← j.variant? with
    | ("InsufficientGas", p) => Json.unit? .insufficientGas p
    | ("InvalidGasObject", p) => Json.unit? .invalidGasObject p
    | ("InvariantViolation", p) => Json.unit? .invariantViolation p
    | ("FeatureNotYetSupported", p) => Json.unit? .featureNotYetSupported p
    | ("MoveObjectTooBig", p) =>
      Json.fields? (do
        return .moveObjectTooBig (← Json.required UInt64 "objectSize")
          (← Json.required UInt64 "maxObjectSize")) p
    | ("MovePackageTooBig", p) =>
      Json.fields? (do
        return .movePackageTooBig (← Json.required UInt64 "objectSize")
          (← Json.required UInt64 "maxObjectSize")) p
    | ("CircularObjectOwnership", p) =>
      Json.fields? (do return .circularObjectOwnership (← Json.required Address "object")) p
    | ("InsufficientCoinBalance", p) => Json.unit? .insufficientCoinBalance p
    | ("CoinBalanceOverflow", p) => Json.unit? .coinBalanceOverflow p
    | ("PublishErrorNonZeroAddress", p) => Json.unit? .publishErrorNonZeroAddress p
    | ("SuiMoveVerificationError", p) => Json.unit? .suiMoveVerificationError p
    | ("MovePrimitiveRuntimeError", p) => Json.single? ExecutionFailure.movePrimitiveRuntimeError p
    | ("MoveAbort", p) =>
      Json.single? (fun (p : CodeLocation × UInt64) => ExecutionFailure.moveAbort p.1 p.2) p
    | ("VMVerificationOrDeserializationError", p) =>
      Json.unit? .vmVerificationOrDeserializationError p
    | ("VMInvariantViolation", p) => Json.unit? .vmInvariantViolation p
    | ("FunctionNotFound", p) => Json.unit? .functionNotFound p
    | ("ArityMismatch", p) => Json.unit? .arityMismatch p
    | ("TypeArityMismatch", p) => Json.unit? .typeArityMismatch p
    | ("NonEntryFunctionInvoked", p) => Json.unit? .nonEntryFunctionInvoked p
    | ("CommandArgumentError", p) =>
      Json.fields? (do
        return .commandArgumentError (← Json.required UInt16 "argIdx")
          (← Json.required ArgumentFault "kind")) p
    | ("TypeArgumentError", p) =>
      Json.fields? (do
        return .typeArgumentError (← Json.required UInt16 "argumentIdx")
          (← Json.required TypeArgumentFault "kind")) p
    | ("UnusedValueWithoutDrop", p) =>
      Json.fields? (do
        return .unusedValueWithoutDrop (← Json.required UInt16 "resultIdx")
          (← Json.required UInt16 "secondaryIdx")) p
    | ("InvalidPublicFunctionReturnType", p) =>
      Json.fields? (do return .invalidPublicFunctionReturnType (← Json.required UInt16 "idx")) p
    | ("InvalidTransferObject", p) => Json.unit? .invalidTransferObject p
    | ("EffectsTooLarge", p) =>
      Json.fields? (do
        return .effectsTooLarge (← Json.required UInt64 "currentSize")
          (← Json.required UInt64 "maxSize")) p
    | ("PublishUpgradeMissingDependency", p) => Json.unit? .publishUpgradeMissingDependency p
    | ("PublishUpgradeDependencyDowngrade", p) => Json.unit? .publishUpgradeDependencyDowngrade p
    | ("PackageUpgradeError", p) =>
      Json.fields? (do return .packageUpgradeError (← Json.required UpgradeFault "upgradeError")) p
    | ("WrittenObjectsTooLarge", p) =>
      Json.fields? (do
        return .writtenObjectsTooLarge (← Json.required UInt64 "currentSize")
          (← Json.required UInt64 "maxSize")) p
    | ("CertificateDenied", p) => Json.unit? .certificateDenied p
    | ("SuiMoveVerificationTimedout", p) => Json.unit? .suiMoveVerificationTimedout p
    | ("SharedObjectOperationNotAllowed", p) => Json.unit? .sharedObjectOperationNotAllowed p
    | ("InputObjectDeleted", p) => Json.unit? .inputObjectDeleted p
    | ("ExecutionCancelledDueToSharedObjectCongestion", p) =>
      Json.fields? (do
        return .executionCancelledDueToSharedObjectCongestion
          (← Json.required (List Address) "congestedObjects")) p
    | ("AddressDeniedForCoin", p) =>
      Json.fields? (do
        return .addressDeniedForCoin (← Json.required Address "address")
          (← Json.required String "coinType")) p
    | ("CoinTypeGlobalPause", p) =>
      Json.fields? (do return .coinTypeGlobalPause (← Json.required String "coinType")) p
    | ("ExecutionCancelledDueToRandomnessUnavailable", p) =>
      Json.unit? .executionCancelledDueToRandomnessUnavailable p
    | ("MoveVectorElemTooBig", p) =>
      Json.fields? (do
        return .moveVectorElemTooBig (← Json.required UInt64 "valueSize")
          (← Json.required UInt64 "maxScaledSize")) p
    | ("MoveRawValueTooBig", p) =>
      Json.fields? (do
        return .moveRawValueTooBig (← Json.required UInt64 "valueSize")
          (← Json.required UInt64 "maxScaledSize")) p
    | ("InvalidLinkage", p) => Json.unit? .invalidLinkage p
    | _ => none

/-- The text of a failure: its name, then its details, if there are any, with sorted fields. -/
def ExecutionFailure.render (f : ExecutionFailure) : String :=
  match (toJson f).sorted with
  | .text name => name
  | .object [(name, payload)] =>
    if payload = .null then name else s!"{name}({payload.compactText})"
  | other => other.compactText

end ObjectLedger
