import ObjectLedger.Config.Basic
import ObjectLedger.Toml.Printer
import ObjectLedger.Toml.Reader

/-!
# Configuration documents

A configuration as a TOML document: a table for each part, every setting on a line of its own. Reading
takes what is there, skips what is unknown and fills in the defaults.
-/

namespace ObjectLedger

namespace Config

def ofToml? (text : String) : Option Config := do ofJson? (← Toml.parse? text).toJson

def tableText (name : String) (settings : List (String × String)) : String :=
  s!"[{name}]\n" ++ String.join (settings.map fun s => s!"{s.1} = {s.2}\n")

/-- The TOML document of a configuration; none if a number does not fit. -/
def toToml? (c : Config) : Option String := do
  let budget ← Toml.natText? c.executor.defaultGasBudget.toNat
  let batch ← Toml.natText? c.resolver.maxBatchSize
  let objects ← Toml.natText? c.resolver.maxGasObjects
  let timeout ← Toml.natText? c.inclusion.timeoutMs.toNat
  let interval ← Toml.natText? c.inclusion.pollIntervalMs.toNat
  let backoff ← Toml.natText? c.inclusion.maxBackoffMs.toNat
  return String.intercalate "\n"
    [tableText "executor" [("default_gas_budget", budget)],
     tableText "resolver" [("max_batch_size", batch), ("max_gas_objects", objects)],
     tableText "inclusion" [("timeout_ms", timeout), ("poll_interval_ms", interval),
       ("max_backoff_ms", backoff), ("jitter_factor", Toml.doubleText c.inclusion.jitterFactor)],
     tableText "logging" [("level", Toml.quoted c.logging.level), ("json", toString c.logging.json)]]

end Config

end ObjectLedger
