import ObjectLedger.Config.Document
import ObjectLedger.Config.EnvFile

/-!
# Layers of settings

A configuration from a document with variables of the environment over it. A variable names a setting by
its path, in letters of either case. A setting is converted to the type it has to have where that makes
sense, so that a text may stand for a number.
-/

namespace ObjectLedger

namespace Settings

/-! ## The tree of settings -/

/-- Whether a character may stand in a part of a path. -/
def isPathChar (c : Char) : Bool := c.isAlphanum || c == '_' || c == '-'

/-- Parts of a text between points. -/
def splitPoints (cs : List Char) : List (List Char) := cs.splitOn '.'

/-- The parts of a path; a text that is none is a part by itself. -/
def path (name : String) : List String :=
  let parts := splitPoints name.toList
  if parts.all fun p => !p.isEmpty && p.all isPathChar then parts.map String.ofList else [name]

/-- The fields of a table; other values have none. -/
def fieldsOf : Toml → List (String × Toml)
  | .table fields => fields
  | _ => []

/-- Fields with another value for a name, in its place if it is there. -/
def put (name : String) (value : Toml) : List (String × Toml) → List (String × Toml)
  | [] => [(name, value)]
  | (k, v) :: rest => if k = name then (k, value) :: rest else (k, v) :: put name value rest

mutual

/-- Lays a value over the setting of a name; tables are merged name by name. -/
def layOver (name : String) (fields : List (String × Toml)) : Toml → List (String × Toml)
  | .table incoming =>
    let key := name.toLower
    let target := (fields.lookup key).getD (.table [])
    match incoming with
    | [] => put key target fields
    | first :: rest => put key (.table (layAll (fieldsOf target) (first :: rest))) fields
  | value => put name.toLower value fields

def layAll (fields : List (String × Toml)) : List (String × Toml) → List (String × Toml)
  | [] => fields
  | (name, value) :: rest => layAll (layOver name fields value) rest

end

def layAt (value : Toml) : List String → List (String × Toml) → List (String × Toml)
  | [], fields => fields
  | [name], fields => layOver name fields value
  | name :: path, fields =>
    put name (.table (layAt value path (fieldsOf ((fields.lookup name).getD (.table []))))) fields

/-- The settings of a document, with each name at the top read as a path. -/
def ofDocument (document : Toml) : List (String × Toml) :=
  (fieldsOf document).foldl (fun fields entry => layAt entry.2 (path entry.1) fields) []

/-- An integer of 64 bits with a sign from decimal digits. -/
def integerOf? (s : String) : Option Int :=
  let (negative, digits) := Double.readSign s.toList
  if digits ≠ [] ∧ digits.all Char.isDigit then
    let n : Int := Double.digitsValue digits
    Toml.bounded? (if negative then -n else n)
  else none

/-- The value of a variable: a truth value, a number if it reads as one, or its text. -/
def valueOf (s : String) : Toml :=
  if s.toLower = "true" then .bool true
  else if s.toLower = "false" then .bool false
  else (((integerOf? s).map .integer).or ((Double.parse? s).map .double)).getD (.text s)

/-- Every variable with this in front is a setting. -/
def variableMark : List Char := "ledger_tx__".toList

/-- Text with a point in place of each double underscore. -/
def pointed : List Char → List Char
  | '_' :: '_' :: rest => '.' :: pointed rest
  | c :: rest => c :: pointed rest
  | [] => []

/-- The setting that a variable names, as a text. -/
def settingName? (varName : String) : Option String :=
  let name := varName.toLower.toList
  if name.take variableMark.length = variableMark then
    some (String.ofList (pointed (name.drop variableMark.length)))
  else none

/-- Lays the variables of an environment over settings. -/
def addEnvironment (env : Environment) (fields : List (String × Toml)) : List (String × Toml) :=
  env.foldl (fun fields entry =>
    match settingName? entry.1 with
    | some name => layAt (valueOf entry.2) (path name) fields
    | none => fields) fields

/-! ## Conversions -/

/-- The truth value of a word, if it is one. -/
def word? (s : String) : Option Bool :=
  if ["true", "on", "yes"].contains s.toLower then some true
  else if ["false", "off", "no"].contains s.toLower then some false
  else none

/-- The whole number nearest to a double, between zero and the greatest of 64 bits. -/
def clamped (x : Double) : Nat :=
  if x.isNaN || x.isNegative then 0
  else if !x.isFinite then UInt64.size - 1
  else min ((2 * x.ratio.1 + x.ratio.2) / (2 * x.ratio.2)) (UInt64.size - 1)

/-- A natural number of 64 bits from decimal digits. -/
def naturalOf? (s : String) : Option Nat :=
  let digits := match s.toList with
    | '+' :: rest => rest
    | all => all
  if digits ≠ [] ∧ digits.all Char.isDigit ∧ Double.digitsValue digits < UInt64.size then
    some (Double.digitsValue digits)
  else none

def natural? : Toml → Option Nat
  | .integer i => if 0 ≤ i then some i.toNat else none
  | .double x => some (clamped x)
  | .bool b => some b.toNat
  | .text s => ((word? s).map Bool.toNat).or (naturalOf? s)
  | _ => none

def double? : Toml → Option Double
  | .integer i => some (.ofInt i)
  | .double x => some x
  | .bool b => some (.ofNat b.toNat)
  | .text s => ((word? s).map fun b => .ofNat b.toNat).or (Double.parse? s)
  | _ => none

def bool? : Toml → Option Bool
  | .integer i => some (i ≠ 0)
  | .double x => some !x.isZero
  | .bool b => some b
  | .text s => if s = "1" then some true else if s = "0" then some false else word? s
  | _ => none

def text? : Toml → Option String
  | .integer i => some (toString i)
  | .double x => some x.plainText
  | .bool b => some (toString b)
  | .text s | .dateTime s => some s
  | _ => none

/-- The setting of a name in a section, converted; the default if it is absent. -/
def setting? {α : Type} (convert : Toml → Option α) (fields : List (String × Toml)) (name : String)
    (value : α) : Option α :=
  match fields.lookup name with
  | some t => convert t
  | none => some value

/-- The settings of a section: a table, or nothing. -/
def section? (fields : List (String × Toml)) (name : String) : Option (List (String × Toml)) :=
  match fields.lookup name with
  | some (.table sub) => some sub
  | some _ => none
  | none => some []

def config? (fields : List (String × Toml)) : Option Config := do
  let word (fs : List (String × Toml)) (name : String) (value : UInt64) : Option UInt64 :=
    (setting? natural? fs name value.toNat).map UInt64.ofNat
  let base : Config := {}
  let executor ← section? fields "executor"
  let resolver ← section? fields "resolver"
  let inclusion ← section? fields "inclusion"
  let logging ← section? fields "logging"
  return {
    executor := {
      defaultGasBudget := ← word executor "default_gas_budget" base.executor.defaultGasBudget }
    resolver := {
      maxBatchSize := ← setting? natural? resolver "max_batch_size" base.resolver.maxBatchSize
      maxGasObjects := ← setting? natural? resolver "max_gas_objects" base.resolver.maxGasObjects }
    inclusion := {
      timeoutMs := ← word inclusion "timeout_ms" base.inclusion.timeoutMs
      pollIntervalMs := ← word inclusion "poll_interval_ms" base.inclusion.pollIntervalMs
      maxBackoffMs := ← word inclusion "max_backoff_ms" base.inclusion.maxBackoffMs
      jitterFactor :=
        ← setting? double? inclusion "jitter_factor" base.inclusion.jitterFactor }
    logging := {
      level := ← setting? text? logging "level" base.logging.level
      json := ← setting? bool? logging "json" false } }

end Settings

/-- The valid configuration of a document, if there is one, under the variables of an environment. -/
def Config.load? (document : Option String) (env : Environment) : Option Config := do
  let base ← match document with
    | none => some []
    | some text => (Toml.parse? text).map Settings.ofDocument
  let config ← Settings.config? (Settings.addEnvironment env base)
  if config.validate.isOk then some config else none

end ObjectLedger
