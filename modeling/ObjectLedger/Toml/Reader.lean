import ObjectLedger.Toml.Document
import ObjectLedger.Toml.Scalar

/-!
# Reading TOML

Text to statements and statements to a document. Every reader gives what it read and the text that
follows, or nothing if the text is malformed.
-/

namespace ObjectLedger.Toml

def skipBlanks (cs : List Char) : List Char := cs.dropWhile isLineBlank

/-- What follows a comment, if there is one, up to the end of the line. -/
def skipComment? (cs : List Char) : Option (List Char) :=
  match cs with
  | '#' :: rest =>
    let rest := rest.dropWhile isPlain
    if rest = [] ∨ (afterLineEnd? rest).isSome then some rest else none
  | cs => some cs

/-- What follows the blanks, comments and line ends at the front; the fuel bounds the number of
lines. -/
def skipGap? : Nat → List Char → Option (List Char)
  | 0, cs => some cs
  | fuel + 1, cs => do
    let cs ← skipComment? (skipBlanks cs)
    match afterLineEnd? cs with
    | some rest => skipGap? fuel rest
    | none => some cs

/-- Whether a character may stand in a bare name. -/
def isBareChar (c : Char) : Bool := c.isAlphanum || c == '_' || c == '-'

/-- A simple name: bare, or a string on one line. -/
def name? (cs : List Char) : Option (String × List Char) :=
  match cs with
  | '"' :: rest => basicString? (cs.length + 1) [] rest
  | '\'' :: rest => literalString? rest
  | cs =>
    let name := cs.takeWhile isBareChar
    if name = [] then none else some (String.ofList name, cs.dropWhile isBareChar)

/-- A dotted name with the blanks around it; the fuel bounds the number of its parts. -/
def path? : Nat → List Char → Option (List String × List Char)
  | 0, _ => none
  | fuel + 1, cs => do
    let (name, cs) ← name? (skipBlanks cs)
    match skipBlanks cs with
    | '.' :: rest =>
      let (names, rest) ← path? fuel rest
      return (name :: names, rest)
    | rest => return ([name], rest)

/-- A dotted name, cut before its last part. -/
def splitPath? (cs : List Char) : Option ((List String × String) × List Char) := do
  let (names, rest) ← path? (cs.length + 1) cs
  return ((names.dropLast, ← names.getLast?), rest)

mutual

/-- A value; the fuel bounds the length of the text. -/
def value? : Nat → List Char → Option (Toml × List Char)
  | 0, _ => none
  | fuel + 1, cs =>
    match cs with
    | '[' :: rest => items? fuel [] rest
    | '\x7b' :: rest =>
      match skipBlanks rest with
      | '\x7d' :: rest => some (.table [], rest)
      | rest => fields? fuel [] rest
    | c :: _ =>
      if c == '"' || c == '\'' then (string? cs).map fun r => (.text r.1, r.2)
      else
        let (word, rest) := spanWord cs
        (wordValue? word).map (·, rest)
    | [] => none

/-- The rest of an array, line ends and comments allowed, a last comma too. -/
def items? : Nat → List Toml → List Char → Option (Toml × List Char)
  | 0, _, _ => none
  | fuel + 1, acc, cs => do
    match ← skipGap? (cs.length + 1) cs with
    | ']' :: rest => return (.array acc.reverse, rest)
    | cs =>
      let (item, cs) ← value? fuel cs
      match ← skipGap? (cs.length + 1) cs with
      | ',' :: rest => items? fuel (item :: acc) rest
      | ']' :: rest => return (.array (item :: acc).reverse, rest)
      | _ => none

/-- The rest of a table in braces, on one line. -/
def fields? : Nat → List (List String × String × Toml) → List Char → Option (Toml × List Char)
  | 0, _, _ => none
  | fuel + 1, acc, cs => do
    let ((path, name), cs) ← splitPath? cs
    let (item, cs) ← value? fuel (skipBlanks (← after? '=' cs))
    let acc := (path, name, item) :: acc
    match skipBlanks cs with
    | ',' :: rest => fields? fuel acc rest
    | '\x7d' :: rest => return (.table (← fieldsOf? acc.reverse), rest)
    | _ => none

end

/-- The header or the field at the front of a line. -/
def statement? (cs : List Char) : Option (Statement × List Char) :=
  match cs with
  | '[' :: '[' :: rest => do
    let (path, rest) ← path? (rest.length + 1) rest
    return (.row path, ← after? ']' (← after? ']' rest))
  | '[' :: rest => do
    let (path, rest) ← path? (rest.length + 1) rest
    return (.table path, ← after? ']' rest)
  | cs => do
    let ((path, name), rest) ← splitPath? cs
    let (item, rest) ← value? (rest.length + 1) (skipBlanks (← after? '=' rest))
    return (.field path name item, rest)

/-- The statements of the lines of a text; the fuel bounds their number. -/
def statements? : Nat → List Statement → List Char → Option (List Statement)
  | 0, _, _ => none
  | fuel + 1, acc, cs => do
    match ← skipGap? (cs.length + 1) cs with
    | [] => return acc.reverse
    | cs =>
      let (statement, rest) ← statement? cs
      let rest ← skipComment? (skipBlanks rest)
      let acc := statement :: acc
      if rest = [] then return acc.reverse else statements? fuel acc (← afterLineEnd? rest)

/-- Reads a document; a mark of the byte order in front is skipped. -/
def parse? (s : String) : Option Toml := do
  let cs := match s.toList with
    | '\ufeff' :: rest => rest
    | all => all
  ofStatements? (← statements? (cs.length + 1) [] cs)

end ObjectLedger.Toml
