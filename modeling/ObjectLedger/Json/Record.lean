import ObjectLedger.Json.Basic

/-!
# JSON forms of records and variants

How a type is read from JSON and written to it. A record is an object, whose unknown fields are
skipped, or the list of its values in order of declaration; a variant without payload is its name,
one with a payload an object of a single field.
-/

namespace ObjectLedger

/-- Types that are written to JSON. -/
class ToJson (α : Type) where
  /-- The JSON form of a value. -/
  toJson : α → Json

/-- Types that are read from JSON. -/
class OfJson (α : Type) where
  /-- The value of a JSON form. -/
  ofJson? : Json → Option α

export ToJson (toJson)
export OfJson (ofJson?)

namespace Json

def below? (bound : Nat) : Json → Option Nat
  | integer i => if 0 ≤ i ∧ i < bound then some i.toNat else none
  | _ => none

def nat (n : Nat) : Json := integer n

end Json

instance : ToJson Json := ⟨id⟩
instance : OfJson Json := ⟨some⟩
instance : ToJson Bool := ⟨Json.bool⟩
instance : ToJson String := ⟨Json.text⟩
instance : ToJson Nat := ⟨Json.nat⟩
instance : ToJson Int := ⟨Json.integer⟩
instance : ToJson UInt8 := ⟨fun n => .nat n.toNat⟩
instance : ToJson UInt16 := ⟨fun n => .nat n.toNat⟩
instance : ToJson UInt32 := ⟨fun n => .nat n.toNat⟩
instance : ToJson UInt64 := ⟨fun n => .nat n.toNat⟩
instance : ToJson Double := ⟨Json.double⟩

instance : OfJson Bool where
  ofJson?
    | .bool value => some value
    | _ => none

instance : OfJson String where
  ofJson?
    | .text value => some value
    | _ => none

instance : OfJson UInt8 := ⟨fun j => (j.below? UInt8.size).map UInt8.ofNat⟩
instance : OfJson UInt16 := ⟨fun j => (j.below? UInt16.size).map UInt16.ofNat⟩
instance : OfJson UInt32 := ⟨fun j => (j.below? UInt32.size).map UInt32.ofNat⟩
instance : OfJson UInt64 := ⟨fun j => (j.below? UInt64.size).map UInt64.ofNat⟩
instance : OfJson Nat := ⟨fun j => j.below? UInt64.size⟩

instance : OfJson Double where
  ofJson?
    | .double value => some value
    | .integer value => some (Double.ofInt value)
    | _ => none

instance {α : Type} [ToJson α] : ToJson (List α) := ⟨fun xs => .array (xs.map toJson)⟩

instance {α : Type} [OfJson α] : OfJson (List α) where
  ofJson?
    | .array items => items.mapM ofJson?
    | _ => none

instance {α : Type} [ToJson α] : ToJson (Option α) where
  toJson
    | none => .null
    | some x => toJson x

instance {α : Type} [OfJson α] : OfJson (Option α) where
  ofJson?
    | .null => some none
    | j => (ofJson? j).map some

instance {α β : Type} [ToJson α] [ToJson β] : ToJson (α × β) :=
  ⟨fun p => .array [toJson p.1, toJson p.2]⟩

instance {α β : Type} [OfJson α] [OfJson β] : OfJson (α × β) where
  ofJson?
    | .array [x, y] => do return (← ofJson? x, ← ofJson? y)
    | _ => none

namespace Json

/-- Where the values of a record come from: fields by name, or a list in order. -/
inductive Source where
  | named (fields : List (String × Json))
  | listed (items : List Json)

/-- Reads the values of a record one after the other. -/
abbrev RecordReader := StateT Source Option

/-- The value of a name; refuses a repeated name. -/
def fieldOnce? (name : String) (fields : List (String × Json)) : Option (Option Json) :=
  match fields.filter (·.1 == name) with
  | [] => some none
  | [field] => some (some field.2)
  | _ => none

/-- The next value, if there is one. -/
def next? (name : String) : RecordReader (Option Json) := fun source =>
  match source with
  | .named fields => (fieldOnce? name fields).map (·, source)
  | .listed [] => some (none, source)
  | .listed (item :: items) => some (some item, .listed items)

/-- A value that has to be there. -/
def required (α : Type) [OfJson α] (name : String) : RecordReader α := do
  match ← next? name with
  | some j => ofJson? j
  | none => failure

/-- A value that may be null, or absent among named fields. -/
def optional (α : Type) [OfJson α] (name : String) : RecordReader (Option α) := do
  match ← next? name, ← get with
  | some j, _ => ofJson? j
  | none, .named _ => return none
  | none, .listed _ => failure

/-- A value that may be absent. -/
def defaulted {α : Type} [OfJson α] (name : String) (value : α) : RecordReader α := do
  match ← next? name with
  | some j => ofJson? j
  | none => return value

/-- A record from an object, or from a list with no value left over. -/
def record? {α : Type} (read : RecordReader α) : Json → Option α
  | object fields => (read (.named fields)).map (·.1)
  | array items =>
    match read (.listed items) with
    | some (value, .listed []) => some value
    | _ => none
  | _ => none

/-- The fields of a variant: an object only. -/
def fields? {α : Type} (read : RecordReader α) (payload : Option Json) : Option α :=
  match payload with
  | some (object fields) => (read (.named fields)).map (·.1)
  | _ => none

def variant? : Json → Option (String × Option Json)
  | text name => some (name, none)
  | object [(name, payload)] => some (name, some payload)
  | _ => none

/-- A variant without payload: none is written, and null is accepted. -/
def unit? {α : Type} (value : α) (payload : Option Json) : Option α :=
  match payload with
  | none | some null => some value
  | _ => none

/-- A variant with a single value. -/
def single? {α β : Type} [OfJson α] (make : α → β) (payload : Option Json) : Option β :=
  match payload with
  | some j => (ofJson? j).map make
  | none => none

def tagged (name : String) (payload : Json) : Json := object [(name, payload)]

end Json

end ObjectLedger
