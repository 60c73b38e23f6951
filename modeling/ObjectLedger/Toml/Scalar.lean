import ObjectLedger.Number.Decimal
import ObjectLedger.Text.Hex
import ObjectLedger.Toml.Basic

/-!
# TOML scalars

Numbers, truth values, dates and times from their words, and the four kinds of strings.
-/

namespace ObjectLedger.Toml

/-! ## Numbers -/

/-- Digits with single underscores between them, without the underscores. -/
def plainDigits? (isDigit : Char → Bool) : List Char → Option (List Char)
  | [] => none
  | [c] => if isDigit c then some [c] else none
  | c :: '_' :: rest => if isDigit c then (plainDigits? isDigit rest).map (c :: ·) else none
  | c :: d :: rest => if isDigit c then (plainDigits? isDigit (d :: rest)).map (c :: ·) else none

def digitsValue (base : Nat) (ds : List Char) : Nat :=
  ds.foldl (fun n c => base * n + (Hex.value? c).getD 0) 0

def bounded? (i : Int) : Option Int :=
  if Int64.minValue.toInt ≤ i ∧ i ≤ Int64.maxValue.toInt then some i else none

def isDigitOf (base : Nat) (c : Char) : Bool := (Hex.value? c).any (· < base)

/-- Decimal digits that do not begin with a needless zero. -/
def wholeDigits? (cs : List Char) : Option (List Char) := do
  let ds ← plainDigits? (isDigitOf 10) cs
  if ds.head? = some '0' ∧ ds.length ≠ 1 then none else some ds

/-- An integer: decimal with a sign, or to base sixteen, eight or two behind its mark. -/
def integer? : List Char → Option Int
  | '0' :: 'x' :: cs => based 16 cs
  | '0' :: 'o' :: cs => based 8 cs
  | '0' :: 'b' :: cs => based 2 cs
  | cs => do
    let (negative, ds) := Double.readSign cs
    let n : Int := digitsValue 10 (← wholeDigits? ds)
    bounded? (if negative then -n else n)
where
  /-- Digits to a base. -/
  based (base : Nat) (cs : List Char) : Option Int := do
    bounded? (digitsValue base (← plainDigits? (isDigitOf base) cs))

def isExponentMark (c : Char) : Bool := c == 'e' || c == 'E'

/-- The parts of a word around the first character of a kind. -/
def splitAt? (p : Char → Bool) (cs : List Char) : List Char × Option (List Char) :=
  match cs.dropWhile fun c => !p c with
  | [] => (cs, none)
  | _ :: rest => (cs.takeWhile fun c => !p c, some rest)

/-- Whether a word has the form of a number with a fraction, an exponent or both. -/
def isDecimal (cs : List Char) : Bool :=
  let (mantissa, exponent) := splitAt? isExponentMark cs
  let (whole, fraction) := splitAt? (· == '.') mantissa
  let digits := plainDigits? (isDigitOf 10)
  (exponent.isSome || fraction.isSome) && (wholeDigits? (Double.readSign whole).2).isSome &&
    fraction.all (fun f => (digits f).isSome) &&
    exponent.all fun e => (digits (Double.readSign e).2).isSome

/-- A number with a fraction or an exponent, or a word for one without digits. Too large a number is
refused. -/
def double? (cs : List Char) : Option Double :=
  let (negative, word) := Double.readSign cs
  if word = "inf".toList then some (.infinity negative)
  else if word = "nan".toList then some .nan
  else if isDecimal cs then
    (Double.parse? (String.ofList (cs.filter (· != '_')))).filter fun x =>
      x.isFinite || x.isNegative
  else none

/-! ## Dates and times -/

/-- The number of some decimal digits, and what follows them. -/
def fixedDigits? (count : Nat) (cs : List Char) : Option (Nat × List Char) :=
  let ds := cs.take count
  if ds.length = count ∧ ds.all Char.isDigit then some (digitsValue 10 ds, cs.drop count) else none

/-- What follows a character that has to stand first. -/
def after? (c : Char) : List Char → Option (List Char)
  | [] => none
  | d :: rest => if d = c then some rest else none

def monthDays (year month : Nat) : Nat :=
  if month = 2 then
    if year % 4 = 0 ∧ (year % 100 ≠ 0 ∨ year % 400 = 0) then 29 else 28
  else if month = 4 ∨ month = 6 ∨ month = 9 ∨ month = 11 then 30
  else 31

def afterDate? (cs : List Char) : Option (List Char) := do
  let (year, cs) ← fixedDigits? 4 cs
  let (month, cs) ← fixedDigits? 2 (← after? '-' cs)
  let (day, cs) ← fixedDigits? 2 (← after? '-' cs)
  if 1 ≤ month ∧ month ≤ 12 ∧ 1 ≤ day ∧ day ≤ monthDays year month then some cs else none

def afterTime? (cs : List Char) : Option (List Char) := do
  let (hour, cs) ← fixedDigits? 2 cs
  let (minute, cs) ← fixedDigits? 2 (← after? ':' cs)
  let (second, cs) ← fixedDigits? 2 (← after? ':' cs)
  if hour ≤ 23 ∧ minute ≤ 59 ∧ second ≤ 60 then
    match cs with
    | '.' :: c :: rest => if c.isDigit then some (rest.dropWhile Char.isDigit) else none
    | ['.'] => none
    | cs => some cs
  else none

/-- Whether a word is the offset of a time from the meridian, or nothing. -/
def isOffset (cs : List Char) : Bool :=
  match cs with
  | [] | ['Z'] | ['z'] => true
  | sign :: rest =>
    (sign == '+' || sign == '-') && ((do
      let (hour, rest) ← fixedDigits? 2 rest
      let (minute, rest) ← fixedDigits? 2 (← after? ':' rest)
      guard (hour ≤ 23 ∧ minute ≤ 59 ∧ rest = [])) : Option Unit).isSome

/-- A date, a time, or both with or without an offset. -/
def dateTime? (cs : List Char) : Option String :=
  match afterDate? cs with
  | some [] => some (String.ofList cs)
  | some (mark :: rest) =>
    if (mark = 'T' ∨ mark = 't' ∨ mark = ' ') ∧ (afterTime? rest).any isOffset then
      some (String.ofList (cs.take 10 ++ 'T' :: rest))
    else none
  | none => if afterTime? cs = some [] then some (String.ofList cs) else none

def isWordChar (c : Char) : Bool := c.isAlphanum || "+-_.:".contains c

/-- The value of a word. -/
def wordValue? (cs : List Char) : Option Toml :=
  if cs = "true".toList then some (.bool true)
  else if cs = "false".toList then some (.bool false)
  else ((dateTime? cs).map .dateTime).or (((double? cs).map .double).or ((integer? cs).map .integer))

/-- The word at the front and what follows it; a date and a time may have a blank between them. -/
def spanWord (cs : List Char) : List Char × List Char :=
  let word := cs.takeWhile isWordChar
  let rest := cs.dropWhile isWordChar
  match rest with
  | ' ' :: c :: more =>
    if afterDate? word = some [] ∧ c.isDigit then
      (word ++ ' ' :: (c :: more).takeWhile isWordChar, (c :: more).dropWhile isWordChar)
    else (word, rest)
  | _ => (word, rest)

/-! ## Strings -/

/-- Whether a character may stand in a comment or a string as it is: all but controls, and tabs. -/
def isPlain (c : Char) : Bool := c == '\t' || (0x20 ≤ c.toNat && c.toNat != 0x7F)

def shortEscape? (c : Char) : Option Char :=
  [('b', '\x08'), ('t', '\t'), ('n', '\n'), ('f', '\x0c'), ('r', '\r'), ('"', '"'),
   ('\\', '\\')].lookup c

/-- The character of a number of hexadecimal digits, and what follows them. -/
def codePoint? (count : Nat) (cs : List Char) : Option (Char × List Char) := do
  let ds := cs.take count
  let n := digitsValue 16 ds
  if ds.length = count ∧ ds.all (isDigitOf 16) ∧ n.isValidChar then
    some (Char.ofNat n, cs.drop count)
  else none

/-- The character of an escape, after the backslash, and what follows it. -/
def escape? : List Char → Option (Char × List Char)
  | [] => none
  | 'u' :: rest => codePoint? 4 rest
  | 'U' :: rest => codePoint? 8 rest
  | c :: rest => (shortEscape? c).map (·, rest)

def afterLineEnd? : List Char → Option (List Char)
  | '\n' :: rest => some rest
  | '\r' :: '\n' :: rest => some rest
  | _ => none

def dropLineEnd (cs : List Char) : List Char := (afterLineEnd? cs).getD cs

/-- The rest of a string on one line, with escapes; the fuel bounds its length. -/
def basicString? : Nat → List Char → List Char → Option (String × List Char)
  | 0, _, _ => none
  | fuel + 1, acc, cs =>
    match cs with
    | '"' :: rest => some (String.ofList acc.reverse, rest)
    | '\\' :: rest => do
      let (c, rest) ← escape? rest
      basicString? fuel (c :: acc) rest
    | c :: rest => if isPlain c then basicString? fuel (c :: acc) rest else none
    | [] => none

/-- A string on one line, as it stands. -/
def literalString? (cs : List Char) : Option (String × List Char) :=
  let text := cs.takeWhile (· != '\'')
  match cs.dropWhile (· != '\'') with
  | _ :: rest => if text.all isPlain then some (String.ofList text, rest) else none
  | [] => none

/-- The end of a string over lines: three quotes, before which up to two more belong to the text. -/
def closing? (quote : Char) (cs : List Char) : Option (List Char × List Char) :=
  let quotes := cs.takeWhile (· == quote)
  if 3 ≤ quotes.length ∧ quotes.length ≤ 5 then some (quotes.drop 3, cs.drop quotes.length)
  else none

def isLineBlank (c : Char) : Bool := c == ' ' || c == '\t'

/-- Whether a character is a blank or part of a line end. -/
def isGapChar (c : Char) : Bool := isLineBlank c || c == '\n' || c == '\r'

/-- A text without its front of blanks and line ends, if that front has a line end and each carriage
return is part of one. -/
def afterLineBreak? (cs : List Char) : Option (List Char) :=
  let gap := cs.takeWhile isGapChar
  let ends := (gap.zip (gap.drop 1)).all fun p => p.1 != '\r' || p.2 == '\n'
  if (afterLineEnd? (gap.dropWhile isLineBlank)).isSome ∧ ends ∧ gap.getLast? ≠ some '\r' then
    some (cs.dropWhile isGapChar)
  else none

/-- The rest of a string over lines, with escapes or as it stands; the fuel bounds its length. -/
def longString? (quote : Char) (escapes : Bool) : Nat → List Char → List Char →
    Option (String × List Char)
  | 0, _, _ => none
  | fuel + 1, acc, cs =>
    match closing? quote cs with
    | some (more, rest) => some (String.ofList (acc.reverse ++ more), rest)
    | none =>
      match afterLineEnd? cs with
      | some rest => longString? quote escapes fuel ('\n' :: acc) rest
      | none =>
        match cs with
        | [] => none
        | c :: rest =>
          if escapes && c == '\\' then
            match afterLineBreak? rest with
            | some rest => longString? quote escapes fuel acc rest
            | none => do
              let (c, rest) ← escape? rest
              longString? quote escapes fuel (c :: acc) rest
          else if c = quote ∧ 3 ≤ (cs.takeWhile (· == quote)).length then none
          else if isPlain c then longString? quote escapes fuel (c :: acc) rest
          else none

/-- A string of any kind at the front, and what follows it. -/
def string? (cs : List Char) : Option (String × List Char) :=
  match cs with
  | '"' :: '"' :: '"' :: rest => longString? '"' true (cs.length + 1) [] (dropLineEnd rest)
  | '"' :: rest => basicString? (cs.length + 1) [] rest
  | '\'' :: '\'' :: '\'' :: rest => longString? '\'' false (cs.length + 1) [] (dropLineEnd rest)
  | '\'' :: rest => literalString? rest
  | _ => none

end ObjectLedger.Toml
