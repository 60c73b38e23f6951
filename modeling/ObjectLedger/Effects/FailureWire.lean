import ObjectLedger.Effects.Failure
import ObjectLedger.Wire.Ledger

/-!
# Failures on the wire

Each reason is a variant with its details in order.
-/

namespace ObjectLedger.Wire

def moduleId (m : ModuleId) : Bytes := address m.address ++ string m.name

def codeLocation (l : CodeLocation) : Bytes :=
  moduleId l.module ++ u16 l.function ++ u16 l.instruction ++ option string l.functionName

def argumentFault : ArgumentFault → Bytes
  | .typeMismatch => variant 0
  | .invalidBCSBytes => variant 1
  | .invalidUsageOfPureArg => variant 2
  | .invalidArgumentToPrivateEntryFunction => variant 3
  | .indexOutOfBounds index => variant 4 ++ u16 index
  | .secondaryIndexOutOfBounds result secondary => variant 5 ++ u16 result ++ u16 secondary
  | .invalidResultArity result => variant 6 ++ u16 result
  | .invalidGasCoinUsage => variant 7
  | .invalidValueUsage => variant 8
  | .invalidObjectByValue => variant 9
  | .invalidObjectByMutRef => variant 10
  | .sharedObjectOperationNotAllowed => variant 11
  | .invalidArgumentArity => variant 12

def typeArgumentFault : TypeArgumentFault → Bytes
  | .typeNotFound => variant 0
  | .constraintNotSatisfied => variant 1

def upgradeFault : UpgradeFault → Bytes
  | .unableToFetchPackage package => variant 0 ++ address package
  | .notAPackage object => variant 1 ++ address object
  | .incompatibleUpgrade => variant 2
  | .digestDoesNotMatch digest => variant 3 ++ bytes digest
  | .unknownUpgradePolicy policy => variant 4 ++ u8 policy
  | .packageIDDoesNotMatch package ticket => variant 5 ++ address package ++ address ticket

def executionFailure : ExecutionFailure → Bytes
  | .insufficientGas => variant 0
  | .invalidGasObject => variant 1
  | .invariantViolation => variant 2
  | .featureNotYetSupported => variant 3
  | .moveObjectTooBig size maximum => variant 4 ++ u64 size ++ u64 maximum
  | .movePackageTooBig size maximum => variant 5 ++ u64 size ++ u64 maximum
  | .circularObjectOwnership object => variant 6 ++ address object
  | .insufficientCoinBalance => variant 7
  | .coinBalanceOverflow => variant 8
  | .publishErrorNonZeroAddress => variant 9
  | .suiMoveVerificationError => variant 10
  | .movePrimitiveRuntimeError location => variant 11 ++ option codeLocation location
  | .moveAbort location code => variant 12 ++ codeLocation location ++ u64 code
  | .vmVerificationOrDeserializationError => variant 13
  | .vmInvariantViolation => variant 14
  | .functionNotFound => variant 15
  | .arityMismatch => variant 16
  | .typeArityMismatch => variant 17
  | .nonEntryFunctionInvoked => variant 18
  | .commandArgumentError index fault => variant 19 ++ u16 index ++ argumentFault fault
  | .typeArgumentError index fault => variant 20 ++ u16 index ++ typeArgumentFault fault
  | .unusedValueWithoutDrop result secondary => variant 21 ++ u16 result ++ u16 secondary
  | .invalidPublicFunctionReturnType index => variant 22 ++ u16 index
  | .invalidTransferObject => variant 23
  | .effectsTooLarge size maximum => variant 24 ++ u64 size ++ u64 maximum
  | .publishUpgradeMissingDependency => variant 25
  | .publishUpgradeDependencyDowngrade => variant 26
  | .packageUpgradeError fault => variant 27 ++ upgradeFault fault
  | .writtenObjectsTooLarge size maximum => variant 28 ++ u64 size ++ u64 maximum
  | .certificateDenied => variant 29
  | .suiMoveVerificationTimedout => variant 30
  | .sharedObjectOperationNotAllowed => variant 31
  | .inputObjectDeleted => variant 32
  | .executionCancelledDueToSharedObjectCongestion objects => variant 33 ++ seq address objects
  | .addressDeniedForCoin account coinType => variant 34 ++ address account ++ string coinType
  | .coinTypeGlobalPause coinType => variant 35 ++ string coinType
  | .executionCancelledDueToRandomnessUnavailable => variant 36
  | .moveVectorElemTooBig size maximum => variant 37 ++ u64 size ++ u64 maximum
  | .moveRawValueTooBig size maximum => variant 38 ++ u64 size ++ u64 maximum
  | .invalidLinkage => variant 39

namespace Reader

def moduleId : Reader ModuleId := do
  let address ← address
  let name ← string
  return { address, name }

def codeLocation : Reader CodeLocation := do
  let module ← moduleId
  let function ← u16
  let instruction ← u16
  let functionName ← option string
  return { module, function, instruction, functionName }

def argumentFault : Reader ArgumentFault := do
  match ← variant with
  | 0 => return .typeMismatch
  | 1 => return .invalidBCSBytes
  | 2 => return .invalidUsageOfPureArg
  | 3 => return .invalidArgumentToPrivateEntryFunction
  | 4 => return .indexOutOfBounds (← u16)
  | 5 =>
    let result ← u16
    return .secondaryIndexOutOfBounds result (← u16)
  | 6 => return .invalidResultArity (← u16)
  | 7 => return .invalidGasCoinUsage
  | 8 => return .invalidValueUsage
  | 9 => return .invalidObjectByValue
  | 10 => return .invalidObjectByMutRef
  | 11 => return .sharedObjectOperationNotAllowed
  | 12 => return .invalidArgumentArity
  | tag => fail (.unknownVariant "CommandArgumentError" tag)

def typeArgumentFault : Reader TypeArgumentFault := do
  match ← variant with
  | 0 => return .typeNotFound
  | 1 => return .constraintNotSatisfied
  | tag => fail (.unknownVariant "TypeArgumentError" tag)

def upgradeFault : Reader UpgradeFault := do
  match ← variant with
  | 0 => return .unableToFetchPackage (← address)
  | 1 => return .notAPackage (← address)
  | 2 => return .incompatibleUpgrade
  | 3 => return .digestDoesNotMatch (← bytes)
  | 4 => return .unknownUpgradePolicy (← u8)
  | 5 =>
    let package ← address
    return .packageIDDoesNotMatch package (← address)
  | tag => fail (.unknownVariant "PackageUpgradeError" tag)

def executionFailure : Reader ExecutionFailure := do
  match ← variant with
  | 0 => return .insufficientGas
  | 1 => return .invalidGasObject
  | 2 => return .invariantViolation
  | 3 => return .featureNotYetSupported
  | 4 =>
    let size ← u64
    return .moveObjectTooBig size (← u64)
  | 5 =>
    let size ← u64
    return .movePackageTooBig size (← u64)
  | 6 => return .circularObjectOwnership (← address)
  | 7 => return .insufficientCoinBalance
  | 8 => return .coinBalanceOverflow
  | 9 => return .publishErrorNonZeroAddress
  | 10 => return .suiMoveVerificationError
  | 11 => return .movePrimitiveRuntimeError (← option codeLocation)
  | 12 =>
    let location ← codeLocation
    return .moveAbort location (← u64)
  | 13 => return .vmVerificationOrDeserializationError
  | 14 => return .vmInvariantViolation
  | 15 => return .functionNotFound
  | 16 => return .arityMismatch
  | 17 => return .typeArityMismatch
  | 18 => return .nonEntryFunctionInvoked
  | 19 =>
    let index ← u16
    return .commandArgumentError index (← argumentFault)
  | 20 =>
    let index ← u16
    return .typeArgumentError index (← typeArgumentFault)
  | 21 =>
    let result ← u16
    return .unusedValueWithoutDrop result (← u16)
  | 22 => return .invalidPublicFunctionReturnType (← u16)
  | 23 => return .invalidTransferObject
  | 24 =>
    let size ← u64
    return .effectsTooLarge size (← u64)
  | 25 => return .publishUpgradeMissingDependency
  | 26 => return .publishUpgradeDependencyDowngrade
  | 27 => return .packageUpgradeError (← upgradeFault)
  | 28 =>
    let size ← u64
    return .writtenObjectsTooLarge size (← u64)
  | 29 => return .certificateDenied
  | 30 => return .suiMoveVerificationTimedout
  | 31 => return .sharedObjectOperationNotAllowed
  | 32 => return .inputObjectDeleted
  | 33 => return .executionCancelledDueToSharedObjectCongestion (← seq address)
  | 34 =>
    let account ← address
    return .addressDeniedForCoin account (← string)
  | 35 => return .coinTypeGlobalPause (← string)
  | 36 => return .executionCancelledDueToRandomnessUnavailable
  | 37 =>
    let size ← u64
    return .moveVectorElemTooBig size (← u64)
  | 38 =>
    let size ← u64
    return .moveRawValueTooBig size (← u64)
  | 39 => return .invalidLinkage
  | tag => fail (.unknownVariant "ExecutionFailureStatus" tag)

end Reader

end ObjectLedger.Wire
