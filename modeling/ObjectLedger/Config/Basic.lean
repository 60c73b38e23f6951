import ObjectLedger.Executor.Inclusion
import ObjectLedger.Resolve.Pipeline

/-!
# Configuration

The settings of executor, resolver, inclusion and logging. Every setting has a default, and a
configuration is checked setting by setting in a fixed order.
-/

namespace ObjectLedger

/-- Settings of the executor. -/
structure ExecutorConfig where
  /-- The budget of a transaction that sets none. -/
  defaultGasBudget : UInt64 := 50000000
  deriving DecidableEq

/-- Settings of the log. -/
structure LoggingConfig where
  /-- What is logged, as filter directives. -/
  level : String := "info"
  /-- Whether records are written as JSON. -/
  json : Bool := false
  deriving DecidableEq

/-- All settings. -/
structure Config where
  executor : ExecutorConfig := {}
  resolver : ResolverConfig := {}
  inclusion : InclusionConfig := {}
  logging : LoggingConfig := {}
  deriving DecidableEq

/-- Why a configuration was refused. -/
inductive ConfigFault where
  /-- A setting that has to be positive is zero. -/
  | notPositive (setting : String)
  /-- The longest wait is shorter than the interval. -/
  | backoffTooShort
  | jitterOutOfRange
  deriving DecidableEq, Repr

def ConfigFault.message : ConfigFault → String
  | notPositive setting => s!"{setting} must be positive"
  | backoffTooShort => "inclusion.max_backoff_ms must be at least inclusion.poll_interval_ms"
  | jitterOutOfRange => "inclusion.jitter_factor must be within [0, 1]"

namespace Config

/-- A fault unless a condition holds. -/
def ensure (condition : Bool) (fault : ConfigFault) : Except ConfigFault Unit :=
  if condition then .ok () else .error fault

def validate (c : Config) : Except ConfigFault Unit := do
  ensure (0 < c.executor.defaultGasBudget) (.notPositive "executor.default_gas_budget")
  ensure (0 < c.resolver.maxBatchSize) (.notPositive "resolver.max_batch_size")
  ensure (0 < c.resolver.maxGasObjects) (.notPositive "resolver.max_gas_objects")
  ensure (0 < c.inclusion.pollIntervalMs) (.notPositive "inclusion.poll_interval_ms")
  ensure (c.inclusion.pollIntervalMs ≤ c.inclusion.maxBackoffMs) .backoffTooShort
  ensure (Double.zero.le c.inclusion.jitterFactor && c.inclusion.jitterFactor.le (.ofNat 1))
    .jitterOutOfRange

end Config

instance : ToJson ExecutorConfig where
  toJson c := .object [("default_gas_budget", toJson c.defaultGasBudget)]

instance : OfJson ExecutorConfig where
  ofJson? := Json.record? do
    return { defaultGasBudget :=
      ← Json.defaulted "default_gas_budget" ({} : ExecutorConfig).defaultGasBudget }

instance : ToJson ResolverConfig where
  toJson c := .object [("max_batch_size", toJson c.maxBatchSize),
    ("max_gas_objects", toJson c.maxGasObjects)]

instance : OfJson ResolverConfig where
  ofJson? := Json.record? do
    return { maxBatchSize := ← Json.defaulted "max_batch_size" ({} : ResolverConfig).maxBatchSize
             maxGasObjects :=
               ← Json.defaulted "max_gas_objects" ({} : ResolverConfig).maxGasObjects }

instance : ToJson InclusionConfig where
  toJson c := .object [("timeout_ms", toJson c.timeoutMs),
    ("poll_interval_ms", toJson c.pollIntervalMs), ("max_backoff_ms", toJson c.maxBackoffMs),
    ("jitter_factor", toJson c.jitterFactor)]

instance : OfJson InclusionConfig where
  ofJson? := Json.record? do
    let base : InclusionConfig := {}
    return { timeoutMs := ← Json.defaulted "timeout_ms" base.timeoutMs
             pollIntervalMs := ← Json.defaulted "poll_interval_ms" base.pollIntervalMs
             maxBackoffMs := ← Json.defaulted "max_backoff_ms" base.maxBackoffMs
             jitterFactor := ← Json.defaulted "jitter_factor" base.jitterFactor }

instance : ToJson LoggingConfig where
  toJson c := .object [("level", toJson c.level), ("json", toJson c.json)]

instance : OfJson LoggingConfig where
  ofJson? := Json.record? do
    return { level := ← Json.defaulted "level" ({} : LoggingConfig).level
             json := ← Json.defaulted "json" false }

instance : ToJson Config where
  toJson c := .object [("executor", toJson c.executor), ("resolver", toJson c.resolver),
    ("inclusion", toJson c.inclusion), ("logging", toJson c.logging)]

instance : OfJson Config where
  ofJson? := Json.record? do
    return { executor := ← Json.defaulted "executor" ({} : ExecutorConfig)
             resolver := ← Json.defaulted "resolver" ({} : ResolverConfig)
             inclusion := ← Json.defaulted "inclusion" ({} : InclusionConfig)
             logging := ← Json.defaulted "logging" ({} : LoggingConfig) }

end ObjectLedger
