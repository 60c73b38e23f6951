import ObjectLedger.Table
import ObjectLedger.Text.Blank
import ObjectLedger.Text.Word

/-!
# Environment files

Lines of `NAME=value` that add to the environment what it does not hold yet. A value may be quoted, may
run over lines inside quotes, and may name variables behind a dollar sign. The first malformed line
ends the reading; what was read before it stays.
-/

namespace ObjectLedger

/-- The variables of an environment. -/
abbrev Environment := Table String String

namespace EnvFile

/-! ## Lines -/

/-- Where in a line a reader stands. -/
inductive Place where
  | plain
  | blank
  | escape
  | single
  | singleEscape
  | double
  | doubleEscape
  deriving DecidableEq, Repr

/-- Where a quote, a backslash or any other character leads from outside quotes. -/
def Place.enter (c : Char) : Place :=
  if c = '\\' then escape else if c = '"' then double else if c = '\'' then single else plain

/-- Where a character leads. -/
def Place.next (p : Place) (c : Char) : Place :=
  match p with
  | blank => enter c
  | plain => if isBlank c ∧ c ≠ '\n' ∧ c ≠ '\r' then blank else enter c
  | escape => plain
  | double => if c = '\\' then doubleEscape else if c = '"' then plain else double
  | doubleEscape => double
  | single => if c = '\\' then singleEscape else if c = '\'' then plain else single
  | singleEscape => single

/-- The place at the end of a line, or the text before a comment. -/
def scan : Place → List Char → List Char → Place × Option (List Char)
  | p, _, [] => (p, none)
  | p, before, c :: rest =>
    if p = .blank ∧ c = '#' then (p, some before.reverse)
    else scan (p.next c) (c :: before) rest

/-- Lines with their ends; the fuel bounds their number. -/
def rawLines : Nat → List Char → List (List Char)
  | 0, _ => []
  | fuel + 1, cs =>
    if cs = [] then []
    else
      let line := cs.takeWhile (· != '\n')
      match cs.dropWhile (· != '\n') with
      | _ :: rest => (line ++ ['\n']) :: rawLines fuel rest
      | [] => [line]

/-- A line without its end. -/
def chopEnd (cs : List Char) : List Char :=
  match cs.reverse with
  | '\n' :: '\r' :: rest => rest.reverse
  | '\n' :: rest => rest.reverse
  | _ => cs

/-- Lines joined where quotes are open; none in place of a last line that does not end. -/
def joinLines : Place → List Char → List (List Char) → List (Option (List Char))
  | p, _, [] => if p = .plain then [] else [none]
  | p, held, line :: rest =>
    let all := held ++ line
    if (all.dropWhile isBlank).head? = some '#' then some [] :: joinLines .plain [] rest
    else
      match scan p [] line with
      | (_, some before) => some (held ++ before) :: joinLines .plain [] rest
      | (.plain, none) => some (chopEnd all) :: joinLines .plain [] rest
      | (p, none) => joinLines p all rest

/-! ## Values -/

/-- How a name behind a dollar sign goes on. -/
inductive Naming where
  | off
  | bare
  | braced
  deriving DecidableEq, Repr

/-- The state of the reader of a value. -/
structure Reading where
  single : Bool := false
  double : Bool := false
  escape : Bool := false
  naming : Naming := .off
  /-- The name read so far, the last character first. -/
  name : List Char := []
  /-- The value read so far, the last character first. -/
  value : List Char := []
  /-- Only a comment may follow. -/
  isOver : Bool := false

namespace Reading

def push (r : Reading) (c : Char) : Reading := { r with value := c :: r.value }

/-- Puts the value of the variable that was named in the place of its name. -/
def substitute (valueOf? : String → Option String) (r : Reading) : Reading :=
  let found := (valueOf? (String.ofList r.name.reverse)).getD ""
  { r with value := found.toList.reverse ++ r.value, name := [], naming := .off }

def stepName (valueOf? : String → Option String) (r : Reading) (c : Char) : Reading :=
  if isWordChar c ∧ c ≠ '_' then { r with name := c :: r.name }
  else if r.naming = .braced then
    if c = '\x7d' then r.substitute valueOf? else { r with name := c :: r.name }
  else if c = '\x7b' ∧ r.name = [] then { r with naming := .braced }
  else
    let r := r.substitute valueOf?
    if c = '$' then { r with naming := .bare } else r.push c

/-- Takes in a character outside escapes, single quotes and names. -/
def stepPlain (r : Reading) (c : Char) : Reading :=
  if c = '$' then { r with naming := .bare }
  else if r.double then
    if c = '"' then { r with double := false }
    else if c = '\\' then { r with escape := true }
    else r.push c
  else if c = '\'' then { r with single := true }
  else if c = '"' then { r with double := true }
  else if c = '\\' then { r with escape := true }
  else if c = ' ' ∨ c = '\t' then { r with isOver := true }
  else r.push c

def escaped? (c : Char) : Option Char :=
  if c = 'n' then some '\n' else if "\\'\"$ ".contains c then some c else none

def run (valueOf? : String → Option String) : Reading → List Char → Option Reading
  | r, [] => some r
  | r, c :: rest =>
    if r.isOver then
      if c = ' ' ∨ c = '\t' then run valueOf? r rest else if c = '#' then some r else none
    else if r.escape then
      match escaped? c with
      | some c => run valueOf? { r.push c with escape := false } rest
      | none => none
    else if r.single then
      run valueOf? (if c = '\'' then { r with single := false } else r.push c) rest
    else if r.naming ≠ .off then run valueOf? (r.stepName valueOf? c) rest
    else run valueOf? (r.stepPlain c) rest

/-- The value, unless a quote or a brace is still open. -/
def finish? (valueOf? : String → Option String) (r : Reading) : Option String :=
  if r.naming = .braced ∨ r.single ∨ r.double then none
  else some (String.ofList (r.substitute valueOf?).value.reverse)

end Reading

/-- The name at the front of a line, and what follows it. -/
def name? (cs : List Char) : Option (String × List Char) :=
  let isNameChar (c : Char) := c.isAlphanum || c == '_' || c == '.'
  if cs.head?.any fun c => c.isAlpha || c == '_' then
    some (String.ofList (cs.takeWhile isNameChar), cs.dropWhile isNameChar)
  else none

/-- What follows an equals sign and the blanks around it. -/
def afterEquals? (cs : List Char) : Option (List Char) :=
  match cs.dropWhile isBlank with
  | '=' :: rest => some (rest.dropWhile isBlank)
  | _ => none

/-- The name and the text of the value in a line; the word `export` may stand in front. -/
def split? (cs : List Char) : Option (String × List Char) := do
  let (name, rest) ← name? cs
  if name = "export" ∧ (afterEquals? rest).isNone then
    let (name, rest) ← name? (rest.dropWhile isBlank)
    return (name, ← afterEquals? rest)
  else return (name, ← afterEquals? rest)

/-- The variable of a line; an empty line has none. The values of earlier lines stand in for variables
that the environment lacks. -/
def assignment? (env earlier : Environment) (cs : List Char) : Option (Option (String × String)) := do
  let cs := cs.dropWhile isBlank
  if cs = [] ∨ cs.head? = some '#' then return none
  let (name, text) ← split? cs
  if text = [] ∨ text.head? = some '#' then return some (name, "")
  let get? (name : String) := (Table.get? env name).or (Table.get? earlier name)
  let reading ← Reading.run get? {} text
  return some (name, ← reading.finish? get?)

/-- The environment and the variables read after some lines. -/
def loadLines : List (Option (List Char)) → Environment → Environment → Environment
  | [], env, _ => env
  | line :: rest, env, earlier =>
    match line.bind (assignment? env earlier) with
    | none => env
    | some none => loadLines rest env earlier
    | some (some (name, value)) =>
      let env' := if (Table.get? env name).isSome then env else Table.insert env name value
      loadLines rest env' (Table.insert earlier name value)

/-- The environment with the variables of a file that it does not hold yet. -/
def load (content : String) (env : Environment) : Environment :=
  let cs := match content.toList with
    | '\ufeff' :: rest => rest
    | all => all
  loadLines (joinLines .plain [] (rawLines (cs.length + 1) cs)) env []

end EnvFile

end ObjectLedger
