import ObjectLedger.Json.Basic
import ObjectLedger.Text.Hex

/-!
# JSON text

Two layouts: compact, on one line without spaces, and indented by two spaces a level. Strings escape
the quote, the backslash and the characters below the space, and nothing else.
-/

namespace ObjectLedger.Json

def escape (c : Char) : List Char :=
  if c = '"' then ['\\', '"']
  else if c = '\\' then ['\\', '\\']
  else if c.toNat = 8 then ['\\', 'b']
  else if c.toNat = 9 then ['\\', 't']
  else if c.toNat = 10 then ['\\', 'n']
  else if c.toNat = 12 then ['\\', 'f']
  else if c.toNat = 13 then ['\\', 'r']
  else if c.toNat < 32 then
    ['\\', 'u', '0', '0', Hex.digit (c.toNat / 16), Hex.digit (c.toNat % 16)]
  else [c]

def quoted (s : String) : List Char :=
  '"' :: (s.toList.flatMap escape ++ ['"'])

def integerText (i : Int) : List Char :=
  if i < 0 then '-' :: Nat.toDigits 10 i.natAbs else Nat.toDigits 10 i.natAbs

mutual

def compact : Json → List Char
  | null => "null".toList
  | bool value => if value then "true".toList else "false".toList
  | integer value => integerText value
  | double value => if value.isFinite then (value.format Double.jsonLayout).toList else "null".toList
  | text value => quoted value
  | array items => '[' :: compactItems items
  | object fields => '\x7b' :: compactFields fields

/-- Items up to the closing bracket. -/
def compactItems : List Json → List Char
  | [] => [']']
  | [x] => compact x ++ [']']
  | x :: xs => compact x ++ ',' :: compactItems xs

/-- Fields up to the closing brace. -/
def compactFields : List (String × Json) → List Char
  | [] => ['\x7d']
  | [(k, x)] => quoted k ++ ':' :: (compact x ++ ['\x7d'])
  | (k, x) :: xs => quoted k ++ ':' :: (compact x ++ ',' :: compactFields xs)

end

/-- A new line with the indentation of a level. -/
def newLine (level : Nat) : List Char :=
  '\n' :: List.replicate (2 * level) ' '

mutual

def indented (level : Nat) : Json → List Char
  | array (x :: xs) => '[' :: indentedItems (level + 1) (x :: xs)
  | object (x :: xs) => '\x7b' :: indentedFields (level + 1) (x :: xs)
  | other => compact other

/-- Items on lines of their own, then the closing bracket one level out. -/
def indentedItems (level : Nat) : List Json → List Char
  | [] => newLine (level - 1) ++ [']']
  | [x] => newLine level ++ indented level x ++ newLine (level - 1) ++ [']']
  | x :: xs => newLine level ++ indented level x ++ ',' :: indentedItems level xs

/-- Fields on lines of their own, then the closing brace one level out. -/
def indentedFields (level : Nat) : List (String × Json) → List Char
  | [] => newLine (level - 1) ++ ['\x7d']
  | [(k, x)] =>
    newLine level ++ quoted k ++ ':' :: ' ' :: (indented level x ++ newLine (level - 1) ++ ['\x7d'])
  | (k, x) :: xs =>
    newLine level ++ quoted k ++ ':' :: ' ' :: (indented level x ++ ',' :: indentedFields level xs)

end

def compactText (j : Json) : String := String.ofList j.compact

def indentedText (j : Json) : String := String.ofList (j.indented 0)

end ObjectLedger.Json
