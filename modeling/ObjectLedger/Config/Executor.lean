import ObjectLedger.Config.Basic
import ObjectLedger.Executor.Serial
import ObjectLedger.Wallet

/-!
# Executors from a configuration

An executor takes its default budget and its waits from a configuration, and its pipeline too unless
it is given one.
-/

namespace ObjectLedger

namespace SerialExecutor

variable {σ : Type}

/-- An executor over parts, with the limits of a configuration. -/
def ofParts (inner : CachingExecutor σ) (signer : Signer σ) (config : Config) : SerialExecutor σ where
  inner
  signer
  defaultBudget := config.executor.defaultGasBudget
  inclusion := config.inclusion

def ofPipeline (ledger : Ledger σ) (lookup : Lookup σ) (signer : Signer σ) (pipeline : Pipeline σ) :
    SerialExecutor σ :=
  ofParts { ledger, lookup := some lookup, pipeline } signer {}

/-- An executor with the standard pipeline and the limits of a configuration. -/
def ofConfig (ledger : Ledger σ) (lookup : Lookup σ) (signer : Signer σ) (config : Config)
    (intents : IntentRegistry σ) : SerialExecutor σ :=
  ofParts { ledger, lookup := some lookup, pipeline := .standard config.resolver intents } signer
    config

def withDefaultBudget (e : SerialExecutor σ) (budget : UInt64) : SerialExecutor σ :=
  { e with defaultBudget := budget }

/-- The executor with other waits. -/
def withInclusion (e : SerialExecutor σ) (inclusion : InclusionConfig) : SerialExecutor σ :=
  { e with inclusion }

end SerialExecutor

def WalletKey.signer {σ : Type} (k : WalletKey) : Signer σ where
  address := k.address
  sign bytes s := (.ok (k.sign bytes), s)

end ObjectLedger
