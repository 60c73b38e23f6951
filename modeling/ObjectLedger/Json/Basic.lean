import ObjectLedger.Number.Decimal

/-!
# JSON values

Values with exact integers beside doubles, and objects as lists of fields in order. A repeated name is
kept, so that a reader of records can refuse it.
-/

namespace ObjectLedger

/-- A JSON value. -/
inductive Json where
  | null
  | bool (value : Bool)
  | integer (value : Int)
  | double (value : Double)
  | text (value : String)
  | array (items : List Json)
  | object (fields : List (String × Json))
  deriving Repr, Inhabited

namespace Json

mutual

def decEq : (a b : Json) → Decidable (a = b)
  | null, null => isTrue rfl
  | bool a, bool b => decidable_of_iff (a = b) (by simp)
  | integer a, integer b => decidable_of_iff (a = b) (by simp)
  | double a, double b => decidable_of_iff (a = b) (by simp)
  | text a, text b => decidable_of_iff (a = b) (by simp)
  | array a, array b => have := decEqItems a b; decidable_of_iff (a = b) (by simp)
  | object a, object b => have := decEqFields a b; decidable_of_iff (a = b) (by simp)
  | null, bool _ | null, integer _ | null, double _ | null, text _ | null, array _
  | null, object _ | bool _, null | bool _, integer _ | bool _, double _ | bool _, text _
  | bool _, array _ | bool _, object _ | integer _, null | integer _, bool _ | integer _, double _
  | integer _, text _ | integer _, array _ | integer _, object _ | double _, null
  | double _, bool _ | double _, integer _ | double _, text _ | double _, array _
  | double _, object _ | text _, null | text _, bool _ | text _, integer _ | text _, double _
  | text _, array _ | text _, object _ | array _, null | array _, bool _ | array _, integer _
  | array _, double _ | array _, text _ | array _, object _ | object _, null | object _, bool _
  | object _, integer _ | object _, double _ | object _, text _ | object _, array _ =>
    isFalse (by simp)

def decEqItems : (a b : List Json) → Decidable (a = b)
  | [], [] => isTrue rfl
  | [], _ :: _ | _ :: _, [] => isFalse (by simp)
  | x :: xs, y :: ys =>
    have := decEq x y
    have := decEqItems xs ys
    decidable_of_iff (x = y ∧ xs = ys) (by simp)

def decEqFields : (a b : List (String × Json)) → Decidable (a = b)
  | [], [] => isTrue rfl
  | [], _ :: _ | _ :: _, [] => isFalse (by simp)
  | (k, x) :: xs, (l, y) :: ys =>
    have := decEq x y
    have := decEqFields xs ys
    decidable_of_iff (k = l ∧ x = y ∧ xs = ys) (by simp [and_assoc])

end

instance : DecidableEq Json := decEq

/-- The field of a name, if the value is an object with one. -/
def get? (name : String) : Json → Option Json
  | object fields => (fields.find? (·.1 == name)).map (·.2)
  | _ => none

/-- The field of a name, an absent one counting as null. -/
def field (j : Json) (name : String) : Json := (j.get? name).getD null

/-- The value of a name in a list of fields that is sorted by name, put in its place. -/
def insertField (name : String) (value : Json) : List (String × Json) → List (String × Json)
  | [] => [(name, value)]
  | (k, v) :: rest =>
    if name < k then (name, value) :: (k, v) :: rest
    else if name = k then (name, value) :: rest
    else (k, v) :: insertField name value rest

/-- Fields sorted by name; of a repeated name the last value stays. -/
def sortFields (fields : List (String × Json)) : List (String × Json) :=
  fields.foldl (fun acc field => insertField field.1 field.2 acc) []

mutual

/-- The same value with the fields of every object sorted by name. -/
def sorted : Json → Json
  | array items => array (sortedItems items)
  | object fields => object (sortFields (sortedFields fields))
  | other => other

def sortedItems : List Json → List Json
  | [] => []
  | x :: xs => sorted x :: sortedItems xs

def sortedFields : List (String × Json) → List (String × Json)
  | [] => []
  | (k, x) :: xs => (k, sorted x) :: sortedFields xs

end

end Json

end ObjectLedger
