import ObjectLedger.Json.Basic

/-!
# TOML values

What a TOML document holds. A table is a list of fields in order, no name twice; a date or a time is
kept as its text.
-/

namespace ObjectLedger

/-- A TOML value. -/
inductive Toml where
  | integer (value : Int)
  | double (value : Double)
  | bool (value : Bool)
  | text (value : String)
  | dateTime (text : String)
  | array (items : List Toml)
  | table (fields : List (String × Toml))
  deriving Inhabited

namespace Toml

/-- The name of the only field that a date has as a record. -/
def dateField : String := "datetime"

mutual

/-- The same value in JSON, a date as a record of its text. -/
def toJson : Toml → Json
  | integer value => .integer value
  | double value => .double value
  | bool value => .bool value
  | text value => .text value
  | dateTime value => .object [(dateField, .text value)]
  | array items => .array (itemsJson items)
  | table fields => .object (fieldsJson fields)

def itemsJson : List Toml → List Json
  | [] => []
  | x :: xs => toJson x :: itemsJson xs

def fieldsJson : List (String × Toml) → List (String × Json)
  | [] => []
  | (k, x) :: xs => (k, toJson x) :: fieldsJson xs

end

end Toml

end ObjectLedger
