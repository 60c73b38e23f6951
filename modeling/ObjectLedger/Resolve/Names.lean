import ObjectLedger.Resolve.Basic
import ObjectLedger.Table
import ObjectLedger.Text.Word

/-!
# Named packages

A text may name a package as `@org/app` or `@org/app/3`. The names of a transaction are looked up in
batches, in sorted order, and what was learnt is remembered, also from a run that fails later. Then each
name gives way to its address, in call targets and inside types.
-/

namespace ObjectLedger

/-- Whether a character may stand in a part of a name. -/
def isNameChar (c : Char) : Bool := isWordChar c || c == '-'

/-- The version at the end of a name, and what follows it. -/
def readVersion (cs : List Char) : List Char × List Char :=
  match cs with
  | '/' :: rest =>
    let digits := rest.takeWhile isDecimalDigit
    if digits = [] then ([], cs) else ('/' :: digits, rest.drop digits.length)
  | _ => ([], cs)

/-- A name after its `@`, and what follows it: two parts and perhaps a version, each part as long as it
can be. -/
def readName? (cs : List Char) : Option (List Char × List Char) :=
  let org := cs.takeWhile isNameChar
  if org = [] then none
  else
    match cs.drop org.length with
    | '/' :: rest =>
      let app := rest.takeWhile isNameChar
      if app = [] then none
      else
        let (version, rest) := readVersion (rest.drop app.length)
        some (org ++ '/' :: (app ++ version), rest)
    | _ => none

/-- A piece of a text: a name, or a character outside of names. -/
inductive NamePiece where
  | name (name : String)
  | other (c : Char)
  deriving DecidableEq, Repr

/-- A text as names and the characters between them, from left to right; the fuel bounds the number of
pieces. -/
def namePiecesWithin : Nat → List Char → List NamePiece
  | 0, _ => []
  | _ + 1, [] => []
  | fuel + 1, c :: rest =>
    if c = '@' then
      match readName? rest with
      | some (name, rest) =>
        .name (String.ofList ('@' :: name)) :: namePiecesWithin fuel rest
      | none => .other c :: namePiecesWithin fuel rest
    else .other c :: namePiecesWithin fuel rest

/-- A text as names and the characters between them. -/
def namePieces (text : String) : List NamePiece :=
  namePiecesWithin text.toList.length text.toList

/-- The names in a text, from left to right. -/
def namesIn (text : String) : List String :=
  (namePieces text).filterMap fun
    | .name name => some name
    | .other _ => none

/-- What is known of names. -/
abbrev NameMemory := Table String Address

/-- A text with each known name replaced by its address. -/
def replaceNames (memory : NameMemory) (text : String) : String :=
  String.ofList ((namePieces text).flatMap fun
    | .name name =>
      match Table.get? memory name with
      | some a => a.chars
      | none => name.toList
    | .other c => [c])

/-- A type with each known name replaced, in canonical form; one without names stays as it is. -/
def resolveType (memory : NameMemory) (text : String) : Except BuildError String :=
  if text.contains '@' then
    (TypeTag.normalize (replaceNames memory text)).mapError .invalidType
  else .ok text

/-- The type that an intent carries in its data. -/
def Intent.type? (i : Intent) : Option String :=
  match i.data.get? "type" with
  | some (.text t) => some t
  | _ => none

/-- The texts of a command in which names may stand. -/
def Command.nameTexts : Command → List String
  | .moveCall call =>
    match call.package with
    | .named name => name :: call.typeArguments
    | .address _ => call.typeArguments
  | .makeMoveVec (some t) _ => [t]
  | .intent i => i.type?.toList
  | _ => []

/-- A text put into a sorted list without repetition. -/
def insertSorted (s : String) : List String → List String
  | [] => [s]
  | t :: rest =>
    if s < t then s :: t :: rest
    else if s = t then t :: rest
    else t :: insertSorted s rest

/-- The names in a transaction, sorted, each one once. -/
def Transaction.names (tx : Transaction) : List String :=
  ((tx.commands.flatMap Command.nameTexts).flatMap namesIn).foldl (fun acc s => insertSorted s acc) []

/-- The package of a call with its name resolved, through the first name that stands in it. -/
def PackageRef.resolve (memory : NameMemory) : PackageRef → Except BuildError PackageRef
  | .address a => .ok (.address a)
  | .named text =>
    match (namesIn text).head?.bind (Table.get? memory) with
    | some a => .ok (.address a)
    | none => .error (.unresolvedName text)

/-- An object with the text under one of its names replaced. -/
def Json.withText (name text : String) : Json → Json
  | .object fields =>
    .object (fields.map fun field => if field.1 = name then (name, .text text) else field)
  | other => other

def Command.resolveNames (memory : NameMemory) : Command → Except BuildError Command
  | .moveCall call => do
    let package ← call.package.resolve memory
    let typeArguments ← call.typeArguments.mapM (resolveType memory)
    return .moveCall { call with package, typeArguments }
  | .makeMoveVec (some t) elements => do
    return .makeMoveVec (some (← resolveType memory t)) elements
  | .intent i =>
    match i.type? with
    | some t => do return .intent { i with data := i.data.withText "type" (← resolveType memory t) }
    | none => .ok (.intent i)
  | other => .ok other

/-- Remembers the answers for names in order, up to the first name without one. -/
def learn (found : List (String × Address)) : List String → NameMemory →
    Except BuildError Unit × NameMemory
  | [], memory => (.ok (), memory)
  | name :: names, memory =>
    match found.lookup name with
    | some a => learn found names (Table.insert memory name a)
    | none => (.error (.unresolvedName name), memory)

def learnBatches {σ : Type} (lookup : Lookup σ) : List (List String) → NameMemory → World σ →
    Except BuildError Unit × NameMemory × World σ
  | [], memory, w => (.ok (), memory, w)
  | batch :: rest, memory, w =>
    match (Build.ask (lookup.packages batch)).exec w with
    | (.error e, w) => (.error e, memory, w)
    | (.ok found, w) =>
      match learn found batch memory with
      | (.error e, memory) => (.error e, memory, w)
      | (.ok (), memory) =>
        let metrics := { w.metrics with namesResolved := w.metrics.namesResolved + batch.length }
        learnBatches lookup rest memory { w with metrics }

/-- Resolves the names in a transaction, asking only for those that are not remembered. -/
def resolveNames {σ : Type} (batch : Nat) (o : BuildOptions σ) (memory : NameMemory)
    (tx : Transaction) (w : World σ) : Except BuildError Transaction × NameMemory × World σ :=
  let names := tx.names
  if names.isEmpty then (.ok tx, memory, w)
  else
    let missing := names.filter fun name => (Table.get? memory name).isNone
    let finish (memory : NameMemory) : Except BuildError Transaction :=
      (tx.commands.mapM (Command.resolveNames memory)).map fun commands => { tx with commands }
    if missing.isEmpty then (finish memory, memory, w)
    else
      match o.lookup with
      | none => (.error (.missingClient "resolve named packages"), memory, w)
      | some lookup =>
        match learnBatches lookup (batches batch missing) memory w with
        | (.error e, memory, w) => (.error e, memory, w)
        | (.ok (), memory, w) => (finish memory, memory, w)

end ObjectLedger
