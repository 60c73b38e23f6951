import ObjectLedger.Wire.Schema

/-!
# Scripts of reads and writes

Sequences of single reads on one cursor, which go on after a fault, and of single writes to one buffer,
which may fail on the way; and the JSON forms of the values they handle.
-/

namespace ObjectLedger

/-- A number of up to 128 bits from decimal digits, which a plus sign may precede. -/
def u128OfText? (s : String) : Option (BitVec 128) :=
  let digits := match s.toList with
    | '+' :: rest => rest
    | all => all
  if digits.isEmpty || !digits.all Char.isDigit then none
  else
    let n : Nat := digits.foldl (fun n c => 10 * n + (c.toNat - 48)) 0
    if n < 1 <<< 128 then some (BitVec.ofNat 128 n) else none

namespace Wire

namespace Schema

def toJson : (s : Schema) → s.Value → Json
  | u8, n => ObjectLedger.toJson n
  | u16, n => ObjectLedger.toJson n
  | u32, n => ObjectLedger.toJson n
  | u64, n => ObjectLedger.toJson n
  | u128, n => .text s!"{n.toNat}"
  | bool, b => .bool b
  | uleb, n | length, n | variant, n => .nat n
  | bytes, bs | fixed _, bs => .text (Hex.text bs)
  | string, s => .text s
  | address, a => ObjectLedger.toJson a
  | digest, d => ObjectLedger.toJson d
  | objectRef, r => ObjectLedger.toJson r
  | owner, o => ObjectLedger.toJson o
  | option item, x => match x with
    | none => .null
    | some x => .tagged "some" (item.toJson x)
  | seq item, xs => .array (xs.map item.toJson)

def ofJson? : (s : Schema) → Json → Option s.Value
  | u8, j => ObjectLedger.ofJson? j
  | u16, j => ObjectLedger.ofJson? j
  | u32, j => ObjectLedger.ofJson? j
  | u64, j => ObjectLedger.ofJson? j
  | u128, j => match j with
    | .text s => u128OfText? s
    | _ => none
  | bool, j => ObjectLedger.ofJson? j
  | uleb, j | length, j => j.below? UInt64.size
  | variant, j => j.below? UInt32.size
  | bytes, j | fixed _, j => match j with
    | .text s => Hex.bytes? s
    | _ => none
  | string, j => ObjectLedger.ofJson? j
  | address, j => ObjectLedger.ofJson? j
  | digest, j => ObjectLedger.ofJson? j
  | objectRef, j => ObjectLedger.ofJson? j
  | owner, j => ObjectLedger.ofJson? j
  | option item, j => match j with
    | .null => some none
    | j => (item.ofJson? j).map some
  | seq item, j => match j with
    | .array items => items.mapM item.ofJson?
    | _ => none

def named? (word : String) : Option Schema :=
  [("u8", u8), ("u16", u16), ("u32", u32), ("u64", u64), ("u128", u128), ("bool", bool),
   ("uleb128", uleb), ("len", length), ("variant", variant), ("bytes", bytes), ("string", string),
   ("address", address), ("digest", digest), ("object_ref", objectRef),
   ("owner", owner)].lookup word

/-- The types of values that a transaction takes by themselves. -/
def pureNamed? (word : String) : Option Schema :=
  [("u8", u8), ("u16", u16), ("u32", u32), ("u64", u64), ("u128", u128), ("bool", bool),
   ("string", string), ("address", address)].lookup word

/-- The schema of a description: a word, or an object that builds it from others. -/
def ofForm? (named? : String → Option Schema) : Json → Option Schema
  | .text word => named? word
  | .object [("option", item)] => (ofForm? named? item).map option
  | .object [("seq", item)] | .object [("vector", item)] => (ofForm? named? item).map seq
  | .object [("fixed", .integer count)] => some (fixed count.toNat)
  | _ => none

end Schema

/-- A single write, which may be at fault. -/
inductive WriteItem (ε : Type) where
  | value (schema : Schema) (value : schema.Value)
  /-- An optional item behind its tag. -/
  | option (item : Option (WriteItem ε))
  /-- Items behind their count. -/
  | seq (items : List (WriteItem ε))
  /-- Fails without writing. -/
  | fail (fault : ε)

namespace WriteItem

variable {ε : Type}

mutual

/-- The bytes written, and why writing stopped if it did. -/
def write : WriteItem ε → Bytes × Option ε
  | value schema x => (schema.write x, none)
  | option none => ([0], none)
  | option (some item) =>
    let (bs, fault) := item.write
    (1 :: bs, fault)
  | seq items =>
    let (bs, fault) := writeAll items
    (length items.length ++ bs, fault)
  | fail fault => ([], some fault)

/-- Writes items until one fails. -/
def writeAll : List (WriteItem ε) → Bytes × Option ε
  | [] => ([], none)
  | item :: items =>
    match item.write with
    | (bs, some fault) => (bs, some fault)
    | (bs, none) =>
      let (more, fault) := writeAll items
      (bs ++ more, fault)

end

end WriteItem

end Wire

end ObjectLedger
