import ObjectLedger.Text.Word

/-!
# Log filters

Which directives a log filter may hold: a level, a target, a target with a level, a span with fields in
brackets.
-/

namespace ObjectLedger.LogFilter

/-- The names of the levels, from the least to the most. -/
def levelNames : List String := ["off", "error", "warn", "info", "debug", "trace"]

/-- The number of decimal digits, which a plus sign may precede. -/
def numberOf? (cs : List Char) : Option Nat :=
  let digits := match cs with
    | '+' :: rest => rest
    | all => all
  if digits ≠ [] ∧ digits.all Char.isDigit then
    some (digits.foldl (fun n c => 10 * n + (c.toNat - 48)) 0)
  else none

/-- Whether a text names a level, by its name or its number; nothing stands for one too. -/
def isLevel (cs : List Char) : Bool :=
  cs.isEmpty || levelNames.contains (String.ofList (cs.map Char.toLower)) ||
    (numberOf? cs).any (· ≤ 5)

/-- Where in a directive a reader stands. -/
inductive Place where
  | start
  /-- In a level or a target. -/
  | word
  | span
  /-- In a field of a span, and whether nothing of it has been read. -/
  | field (isEmpty : Bool)
  /-- Behind the fields of a span. -/
  | fields
  /-- Behind a span. -/
  | target
  deriving DecidableEq, Repr

/-- Whether a character may begin a level or a target. -/
def startsWord (c : Char) : Bool := c == '-' || c == ':' || isWordChar c

/-- Whether the rest of a directive is well formed. -/
def isWellFormed : Place → List Char → Bool
  | .start, '[' :: rest => isWellFormed .span rest
  | .start, c :: rest => startsWord c && isWellFormed .word rest
  | .word, '=' :: rest => isLevel rest
  | .word, '[' :: rest => isWellFormed .span rest
  | .word, _ :: rest => isWellFormed .word rest
  | .span, ']' :: rest => isWellFormed .target rest
  | .span, '\x7b' :: rest => isWellFormed (.field true) rest
  | .span, _ :: rest => isWellFormed .span rest
  | .field isEmpty, '\x7d' :: rest => !isEmpty && isWellFormed .fields rest
  | .field _, _ :: rest => isWellFormed (.field false) rest
  | .fields, ']' :: rest => isWellFormed .target rest
  | .fields, _ :: _ => false
  | .target, '=' :: rest => isLevel rest
  | .target, _ :: _ => false
  | .word, [] | .target, [] => true
  | .start, [] | .span, [] | .field _, [] | .fields, [] => false

/-- Whether each of the directives between commas is well formed; empty ones do not count. -/
def isValid (directives : String) : Bool :=
  (directives.toList.splitOn ',').all fun d => d.isEmpty || isWellFormed .start d

end ObjectLedger.LogFilter
