import ObjectLedger.CommandLine.Arguments
import ObjectLedger.Config.Layers
import ObjectLedger.Config.LogFilter
import ObjectLedger.Effects.Codec
import ObjectLedger.Json.Printer
import ObjectLedger.Transaction.Decode
import ObjectLedger.Transaction.Encode
import ObjectLedger.Wallet

/-!
# Running a command

What a command writes, given the files it may read, its input and its environment. The configuration is
loaded and checked before any command runs, also for those that do not use it.
-/

namespace ObjectLedger.CommandLine

/-- Why a command failed. -/
inductive Failure where
  | config
  | logFilter
  | unreadable (path : String)
  | notBase64
  | transactionBytes
  | transactionJson
  | encoding
  | status
  | effects
  | key (path : String)
  /-- A number of the configuration does not fit into its document. -/
  | document
  deriving DecidableEq, Repr

def Failure.message : Failure → String
  | config => "Failed to load configuration"
  | logFilter => "Invalid log filter"
  | unreadable path => s!"Failed to read {path}"
  | notBase64 => "Input is not valid base64"
  | transactionBytes => "Failed to decode transaction"
  | transactionJson => "Failed to parse transaction JSON"
  | encoding => "Failed to encode transaction"
  | status => "Failed to read execution status"
  | effects => "Failed to decode effects"
  | key path => s!"Failed to load key from {path}"
  | document => "out-of-range value for u64 type"

/-- What surrounds a command. -/
structure Surroundings where
  /-- The contents of files by name. -/
  files : Table String String := []
  /-- What stands on the standard input. -/
  input : String := ""
  env : Environment := []

namespace Surroundings

/-- A name without the mark of the current directory. -/
def plainName (name : String) : String :=
  match name.toList with
  | '.' :: '/' :: rest => String.ofList rest
  | _ => name

def file? (s : Surroundings) (name : String) : Option String := Table.get? s.files (plainName name)

/-- The configuration document of a name, which may lack its ending. -/
def document? (s : Surroundings) (name : String) : Option String :=
  (s.file? name).or (s.file? (name ++ ".toml"))

/-- The environment with the variables of the environment file. -/
def environment (s : Surroundings) : Environment :=
  match s.file? ".env" with
  | some content => EnvFile.load content s.env
  | none => s.env

end Surroundings

/-- The value of an option, or a failure. -/
def orFail {α : Type} (failure : Failure) : Option α → Except Failure α
  | some x => .ok x
  | none => .error failure

def loadConfig (s : Surroundings) (i : Invocation) : Except Failure Config :=
  orFail .config <|
    match i.configFile with
    | none => Config.load? none s.environment
    | some name => (s.document? name).bind fun text => Config.load? (some text) s.environment

/-- Checks that there is a filter for the log: that of the environment, or that of the configuration. -/
def checkFilter (s : Surroundings) (c : Config) : Except Failure Unit :=
  let ofEnvironment := (Table.get? s.environment "RUST_LOG").any LogFilter.isValid
  if ofEnvironment || LogFilter.isValid c.logging.level then .ok () else .error .logFilter

/-- The bytes of an operand, or of the input, in base 64. -/
def bytesOf (s : Surroundings) (operand : Option String) : Except Failure (List UInt8) :=
  orFail .notBase64 (Base64.bytes? (trimmed (operand.getD s.input)))

/-- A value in indented JSON, on lines. -/
def jsonLines {α : Type} [ToJson α] (x : α) : String := (toJson x).indentedText ++ "\n"

def perform (s : Surroundings) (c : Config) : Action → Except Failure String
  | .decodeTransaction operand => do
    let bytes ← bytesOf s operand
    return jsonLines (← orFail .transactionBytes (Transaction.decode bytes).toOption)
  | .encodeTransaction file => do
    let text ← match file with
      | some path => orFail (.unreadable path) (s.file? path)
      | none => pure s.input
    let tx : Transaction ← orFail .transactionJson ((Json.parse? text).bind ofJson?)
    return Base64.text (← orFail .encoding tx.encode.toOption) ++ "\n"
  | .digest operand => do return (Transaction.digest (← bytesOf s operand)).text ++ "\n"
  | .status operand => do
    let bytes ← bytesOf s operand
    return jsonLines (← orFail .status (statusOf bytes).toOption)
  | .decodeEffects operand => do
    let bytes ← bytesOf s operand
    return jsonLines (← orFail .effects (Effects.decode bytes).toOption)
  | .address path => do
    let key ← orFail (.key path) ((s.file? path).bind fun text => (WalletKey.ofFile text).toOption)
    return key.address.text ++ "\n"
  | .printConfig => orFail .document c.toToml?

/-- What a run leaves behind. -/
structure Outcome where
  code : UInt32
  output : String
  /-- The line that says what went wrong. -/
  message : Option String
  deriving DecidableEq, Repr

def runInvocation (s : Surroundings) (i : Invocation) : Except Failure String := do
  let config ← loadConfig s i
  checkFilter s config
  perform s config i.action

def run (s : Surroundings) (args : List String) : Outcome :=
  match parse s.env args with
  | .error .usage => ⟨2, "", none⟩
  | .error .help => ⟨0, "", none⟩
  | .ok i =>
    match runInvocation s i with
    | .ok output => ⟨0, output, none⟩
    | .error failure => ⟨1, "", some s!"Error: {failure.message}"⟩

/-- The files that a command line may read. -/
def filesOf (env : Environment) (args : List String) : List String :=
  match parse env args with
  | .error _ => []
  | .ok i =>
    let config := match i.configFile with
      | some name => [name, name ++ ".toml"]
      | none => []
    let operand := match i.action with
      | .encodeTransaction (some path) | .address path => [path]
      | _ => []
    ".env" :: (config ++ operand)

/-- Whether a command line reads the standard input. -/
def readsInput (env : Environment) (args : List String) : Bool :=
  match parse env args with
  | .error _ => false
  | .ok i =>
    match i.action with
    | .decodeTransaction none | .encodeTransaction none | .digest none | .status none
    | .decodeEffects none => true
    | _ => false

def variableNames : List String :=
  [configVariable, "RUST_LOG", "LEDGER_TX__EXECUTOR__DEFAULT_GAS_BUDGET",
   "LEDGER_TX__RESOLVER__MAX_BATCH_SIZE", "LEDGER_TX__RESOLVER__MAX_GAS_OBJECTS",
   "LEDGER_TX__INCLUSION__TIMEOUT_MS", "LEDGER_TX__INCLUSION__POLL_INTERVAL_MS",
   "LEDGER_TX__INCLUSION__MAX_BACKOFF_MS", "LEDGER_TX__INCLUSION__JITTER_FACTOR",
   "LEDGER_TX__LOGGING__LEVEL", "LEDGER_TX__LOGGING__JSON"]

end ObjectLedger.CommandLine
