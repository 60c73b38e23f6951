import ObjectLedger.Config.EnvFile

/-!
# Arguments of the command line

A subcommand with its operands, and options that may stand before it or behind it. What cannot be read
is a usage error.
-/

namespace ObjectLedger.CommandLine

/-- What is to be done. -/
inductive Action where
  | decodeTransaction (input : Option String)
  | encodeTransaction (file : Option String)
  | digest (input : Option String)
  | status (input : Option String)
  | decodeEffects (input : Option String)
  | address (keyFile : String)
  | printConfig
  deriving DecidableEq, Repr

/-- What the command line asks for. -/
structure Invocation where
  configFile : Option String
  action : Action
  deriving DecidableEq, Repr

/-- Why there is nothing to do. -/
inductive Refusal where
  /-- The arguments cannot be read. -/
  | usage
  /-- The arguments ask for a description of themselves. -/
  | help
  deriving DecidableEq, Repr

/-- What the arguments of one level say: those before the subcommand, or those behind it. -/
structure Level where
  configFile : Option String := none
  jsonLogs : Bool := false
  keyFile : Option String := none
  /-- The operands, the last one first. -/
  operands : List String := []
  deriving DecidableEq, Repr

/-- An option that takes a value. -/
inductive ValueOption where
  | config
  | keyFile
  deriving DecidableEq, Repr

namespace Level

/-- The level with a value for an option, which stands once and is not empty. -/
def set? (l : Level) (o : ValueOption) (value : String) : Except Refusal Level :=
  if value.isEmpty then .error .usage
  else
    match o, l.configFile, l.keyFile with
    | .config, none, _ => .ok { l with configFile := some value }
    | .keyFile, _, none => .ok { l with keyFile := some value }
    | _, _, _ => .error .usage

/-- The level with the switch for JSON logs, which stands once. -/
def setJsonLogs? (l : Level) : Except Refusal Level :=
  if l.jsonLogs then .error .usage else .ok { l with jsonLogs := true }

end Level

/-- What may stand at a level. -/
structure Shape where
  /-- Whether a key file is asked for. -/
  takesKeyFile : Bool
  /-- Whether the version may be asked for. -/
  hasVersion : Bool
  /-- The number of operands. -/
  operands : Nat

/-- What an argument is. -/
inductive Token where
  | jsonLogs
  | help
  /-- The end of the options. -/
  | stop
  /-- An option with its value, or with its value in the next argument. -/
  | option (name : ValueOption) (value : Option String)
  | operand (text : String)
  | unknown
  deriving DecidableEq, Repr

def Shape.letter? (s : Shape) (c : Char) : Option ValueOption :=
  if c = 'c' then some .config else if c = 'k' ∧ s.takesKeyFile then some .keyFile else none

def Shape.long? (s : Shape) (name : String) : Option ValueOption :=
  if name = "config" then some .config
  else if name = "key-file" ∧ s.takesKeyFile then some .keyFile
  else none

/-- Reads what follows two hyphens. -/
def Shape.longToken (s : Shape) (text : List Char) : Token :=
  let name := String.ofList (text.takeWhile (· != '='))
  match text.dropWhile (· != '=') with
  | [] =>
    if name = "json-logs" then .jsonLogs
    else if name = "help" ∨ (name = "version" ∧ s.hasVersion) then .help
    else
      match s.long? name with
      | some o => .option o none
      | none => .unknown
  | _ :: value =>
    match s.long? name with
    | some o => .option o (some (String.ofList value))
    | none => .unknown

/-- Reads what follows one hyphen. -/
def Shape.shortToken (s : Shape) (c : Char) (rest : List Char) : Token :=
  if c = 'h' ∨ (c = 'V' ∧ s.hasVersion) then .help
  else
    match s.letter? c, rest with
    | none, _ => .unknown
    | some o, [] => .option o none
    | some o, '=' :: value => .option o (some (String.ofList value))
    | some o, value => .option o (some (String.ofList value))

def Shape.token (s : Shape) (text : String) : Token :=
  match text.toList with
  | ['-', '-'] => .stop
  | '-' :: '-' :: rest => s.longToken rest
  | '-' :: c :: rest => s.shortToken c rest
  | _ => .operand text

/-- Adds operands up to the number that a level takes. -/
def Shape.addOperands? (s : Shape) (l : Level) (texts : List String) : Except Refusal Level :=
  let operands := texts.reverse ++ l.operands
  if operands.length ≤ s.operands then .ok { l with operands } else .error .usage

def Shape.read (s : Shape) : Level → List String → Except Refusal Level
  | l, [] => .ok l
  | l, text :: rest =>
    match s.token text with
    | .jsonLogs => do s.read (← l.setJsonLogs?) rest
    | .help => .error .help
    | .unknown => .error .usage
    | .stop => s.addOperands? l rest
    | .operand text => do s.read (← s.addOperands? l [text]) rest
    | .option o (some value) => do s.read (← l.set? o value) rest
    | .option o none =>
      match rest with
      | [] => .error .usage
      | value :: rest =>
        match s.token value with
        | .operand value => do s.read (← l.set? o value) rest
        | _ => .error .usage

/-- The level before the subcommand. -/
def rootShape : Shape := ⟨false, true, 0⟩

/-- Reads the arguments before the subcommand: the level, the subcommand and what follows it. -/
def readRoot : Level → List String → Except Refusal (Level × String × List String)
  | _, [] => .error .usage
  | l, text :: rest =>
    match rootShape.token text with
    | .jsonLogs => do readRoot (← l.setJsonLogs?) rest
    | .help => .error .help
    | .unknown | .stop => .error .usage
    | .operand name => .ok (l, name, rest)
    | .option o (some value) => do readRoot (← l.set? o value) rest
    | .option o none =>
      match rest with
      | [] => .error .usage
      | value :: rest =>
        match rootShape.token value with
        | .operand value => do readRoot (← l.set? o value) rest
        | _ => .error .usage

/-- The shape of a subcommand, and what it does. -/
def subcommand? : String → Option (Shape × (Level → Except Refusal Action))
  | "decode-tx" => reads .decodeTransaction
  | "encode-tx" => some (⟨false, false, 1⟩, fun l =>
      if l.operands.head?.any String.isEmpty then .error .usage
      else .ok (.encodeTransaction l.operands.head?))
  | "digest" => reads .digest
  | "status" => reads .status
  | "decode-effects" => reads .decodeEffects
  | "address" => some (⟨true, false, 0⟩, fun l =>
      match l.keyFile with
      | some file => .ok (.address file)
      | none => .error .usage)
  | "print-config" => some (⟨false, false, 0⟩, fun _ => .ok .printConfig)
  | _ => none
where
  /-- A subcommand that takes its input as an operand. -/
  reads (make : Option String → Action) : Option (Shape × (Level → Except Refusal Action)) :=
    some (⟨false, false, 1⟩, fun l => .ok (make l.operands.head?))

/-- The variable that names the configuration file. -/
def configVariable : String := "LEDGER_TX_CONFIG"

/-- The configuration file: as given last, or by the environment. An empty name there is an error,
unless both levels give one. -/
def configFile? (env : Environment) (root behind : Level) : Except Refusal (Option String) :=
  let named := Table.get? env configVariable
  if named = some "" ∧ (root.configFile.isNone ∨ behind.configFile.isNone) then .error .usage
  else .ok (behind.configFile.or (root.configFile.or named))

def parse (env : Environment) (args : List String) : Except Refusal Invocation := do
  let (root, name, rest) ← readRoot {} args
  match subcommand? name with
  | none => .error (if name = "help" then .help else .usage)
  | some (shape, action) =>
    let behind ← shape.read {} rest
    let action ← action behind
    return { configFile := ← configFile? env root behind, action }

end ObjectLedger.CommandLine
