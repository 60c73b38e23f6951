import ObjectLedger.TypeTag.Basic

/-!
# Reading type tags

A recursive descent over the characters of a text. White space may stand around types, brackets and
commas, but not inside a path. A fault carries the byte offset at which reading stopped.
-/

namespace ObjectLedger.TypeTag

/-- A place in a text: its byte offset and the characters from there on. -/
structure Place where
  offset : Nat
  rest : List Char
  deriving Repr

namespace Place

def advance (p : Place) (count : Nat) : Place :=
  ⟨p.offset + Address.utf8Length (p.rest.take count), p.rest.drop count⟩

/-- The place after the white space that starts here. -/
def skipBlank (p : Place) : Place := p.advance (p.rest.takeWhile isBlank).length

end Place

/-- Reading from a place gives a value and the place after it, or a fault and where it is. -/
abbrev Reading (α : Type) := Except (SpellingFault × Nat) (α × Place)

def isDelimiter (c : Char) : Bool := c == '<' || c == '>' || c == ',' || isBlank c

def isIdentStart (c : Char) : Bool := c.isAlpha || c == '_'

/-- Whether a character may stand in an identifier. -/
def isIdentPart (c : Char) : Bool := c.isAlphanum || c == '_'

/-- A letter or underscore, then letters, digits and underscores, all ASCII. -/
def isIdentifier : List Char → Bool
  | [] => false
  | c :: rest => isIdentStart c && rest.all isIdentPart

/-- The pieces of a text between double colons; there is always at least one. -/
def splitColons : List Char → List (List Char)
  | [] => [[]]
  | ':' :: ':' :: rest => [] :: splitColons rest
  | c :: rest =>
    match splitColons rest with
    | [] => [[c]]
    | piece :: pieces => (c :: piece) :: pieces

def expect (symbol : Char) (p : Place) : Reading Unit :=
  let p := p.skipBlank
  match p.rest with
  | c :: _ => if c = symbol then .ok ((), p.advance 1) else .error (.missing symbol, p.offset)
  | [] => .error (.missing symbol, p.offset)

/-- Reads a path up to the next delimiter, after white space. -/
def readPath (p : Place) : List Char × Place :=
  let p := p.skipBlank
  let path := p.rest.takeWhile (!isDelimiter ·)
  (path, p.advance path.length)

/-- The parts of a struct path; `offset` is where the path ends. -/
def structPath (path : List Char) (offset : Nat) :
    Except (SpellingFault × Nat) (Address × String × String) :=
  match splitColons path with
  | [a, m, n] =>
    match Address.parse (String.ofList a) with
    | .ok owner =>
      if isIdentifier m && isIdentifier n then .ok (owner, String.ofList m, String.ofList n)
      else .error (.badIdentifier, offset)
    | .error _ => .error (.badAddress, offset)
  | _ => .error (.malformedPath, offset)

/-- The type that a word names by itself. -/
def primitive? (word : String) : Option TypeTag :=
  if word = "bool" then some bool
  else if word = "u8" then some u8
  else if word = "u16" then some u16
  else if word = "u32" then some u32
  else if word = "u64" then some u64
  else if word = "u128" then some u128
  else if word = "u256" then some u256
  else if word = "address" then some address
  else if word = "signer" then some signer
  else none

mutual

/-- Reads a type; every bracket that opens takes one step of fuel and one character. -/
def readType : Nat → Place → Reading TypeTag
  | 0, p => .error (.missingType, p.offset)
  | fuel + 1, p =>
    let (path, p) := readPath p
    if path = [] then .error (.missingType, p.offset)
    else
      match primitive? (String.ofList path) with
      | some t => .ok (t, p)
      | none =>
        if path = "vector".toList then
          match expect '<' p with
          | .error e => .error e
          | .ok (_, p) =>
            match readType fuel p with
            | .error e => .error e
            | .ok (t, p) =>
              match expect '>' p with
              | .error e => .error e
              | .ok (_, p) => .ok (vector t, p)
        else
          match structPath path p.offset with
          | .error e => .error e
          | .ok (owner, m, n) =>
            let p := p.skipBlank
            match p.rest with
            | '<' :: _ =>
              match readParams fuel [] (p.advance 1) with
              | .error e => .error e
              | .ok (params, p) => .ok (struct owner m n params, p)
            | _ => .ok (struct owner m n [], p)

/-- Reads parameters up to the closing bracket; those read so far are kept in reverse. -/
def readParams : Nat → List TypeTag → Place → Reading (List TypeTag)
  | 0, _, p => .error (.missingSeparator, p.offset)
  | fuel + 1, acc, p =>
    match readType fuel p with
    | .error e => .error e
    | .ok (t, p) =>
      let p := p.skipBlank
      match p.rest with
      | ',' :: _ => readParams fuel (t :: acc) (p.advance 1)
      | '>' :: _ => .ok ((t :: acc).reverse, p.advance 1)
      | _ => .error (.missingSeparator, p.offset)

end

/-- Reads a type that takes up the whole text. -/
def parse (input : String) : Except ParseError TypeTag :=
  let cs := input.toList
  match readType (cs.length + 1) ⟨0, cs⟩ with
  | .error (fault, position) => .error (.invalidType input fault position)
  | .ok (t, p) =>
    let p := p.skipBlank
    if p.rest = [] then .ok t else .error (.invalidType input .trailing p.offset)

def parseStruct (input : String) : Except ParseError TypeTag :=
  match parse input with
  | .ok (struct owner m n params) => .ok (struct owner m n params)
  | .ok _ => .error (.notStruct input)
  | .error e => .error e

def normalize (input : String) : Except ParseError String :=
  (parse input).map text

def nativeCoin : String := "0x2::sui::SUI"

end ObjectLedger.TypeTag
