import ObjectLedger.Ledger.Address

/-!
# Type tags

Types of values on the ledger and their canonical text: primitives in lower case, `vector<T>`, and
structs as `address::module::Name<T1, T2>` with the full address.
-/

namespace ObjectLedger

/-- The type of a value. -/
inductive TypeTag where
  | bool
  | u8
  | u16
  | u32
  | u64
  | u128
  | u256
  | address
  | signer
  | vector (element : TypeTag)
  | struct (address : Address) (module : String) (name : String) (params : List TypeTag)

namespace TypeTag

instance : Inhabited TypeTag := ⟨bool⟩

mutual

/-- The canonical text, as characters. -/
def chars : TypeTag → List Char
  | bool => "bool".toList
  | u8 => "u8".toList
  | u16 => "u16".toList
  | u32 => "u32".toList
  | u64 => "u64".toList
  | u128 => "u128".toList
  | u256 => "u256".toList
  | address => "address".toList
  | signer => "signer".toList
  | vector element => "vector<".toList ++ chars element ++ ['>']
  | struct owner module name params =>
    owner.chars ++ "::".toList ++ module.toList ++ "::".toList ++ name.toList ++
      match params with
      | [] => []
      | p :: ps => '<' :: paramChars (p :: ps)

/-- Parameters with a comma and a space between them, up to the closing bracket. -/
def paramChars : List TypeTag → List Char
  | [] => ['>']
  | [p] => chars p ++ ['>']
  | p :: ps => chars p ++ ',' :: ' ' :: paramChars ps

end

def text (t : TypeTag) : String := String.ofList t.chars

mutual

def decEq : (a b : TypeTag) → Decidable (a = b)
  | bool, b => match b with
    | bool => isTrue rfl
    | u8 | u16 | u32 | u64 | u128 | u256 | address | signer | vector _ | struct _ _ _ _ =>
      isFalse (by simp)
  | u8, b => match b with
    | u8 => isTrue rfl
    | bool | u16 | u32 | u64 | u128 | u256 | address | signer | vector _ | struct _ _ _ _ =>
      isFalse (by simp)
  | u16, b => match b with
    | u16 => isTrue rfl
    | bool | u8 | u32 | u64 | u128 | u256 | address | signer | vector _ | struct _ _ _ _ =>
      isFalse (by simp)
  | u32, b => match b with
    | u32 => isTrue rfl
    | bool | u8 | u16 | u64 | u128 | u256 | address | signer | vector _ | struct _ _ _ _ =>
      isFalse (by simp)
  | u64, b => match b with
    | u64 => isTrue rfl
    | bool | u8 | u16 | u32 | u128 | u256 | address | signer | vector _ | struct _ _ _ _ =>
      isFalse (by simp)
  | u128, b => match b with
    | u128 => isTrue rfl
    | bool | u8 | u16 | u32 | u64 | u256 | address | signer | vector _ | struct _ _ _ _ =>
      isFalse (by simp)
  | u256, b => match b with
    | u256 => isTrue rfl
    | bool | u8 | u16 | u32 | u64 | u128 | address | signer | vector _ | struct _ _ _ _ =>
      isFalse (by simp)
  | address, b => match b with
    | address => isTrue rfl
    | bool | u8 | u16 | u32 | u64 | u128 | u256 | signer | vector _ | struct _ _ _ _ =>
      isFalse (by simp)
  | signer, b => match b with
    | signer => isTrue rfl
    | bool | u8 | u16 | u32 | u64 | u128 | u256 | address | vector _ | struct _ _ _ _ =>
      isFalse (by simp)
  | vector x, b => match b with
    | vector y => have := decEq x y; decidable_of_iff (x = y) (by simp)
    | bool | u8 | u16 | u32 | u64 | u128 | u256 | address | signer | struct _ _ _ _ =>
      isFalse (by simp)
  | struct a m n ps, b => match b with
    | struct a' m' n' ps' =>
      have := decEqParams ps ps'
      decidable_of_iff (a = a' ∧ m = m' ∧ n = n' ∧ ps = ps') (by simp)
    | bool | u8 | u16 | u32 | u64 | u128 | u256 | address | signer | vector _ =>
      isFalse (by simp)

def decEqParams : (a b : List TypeTag) → Decidable (a = b)
  | [], [] => isTrue rfl
  | [], _ :: _ | _ :: _, [] => isFalse (by simp)
  | x :: xs, y :: ys =>
    have := decEq x y
    have := decEqParams xs ys
    decidable_of_iff (x = y ∧ xs = ys) (by simp)

end

instance : DecidableEq TypeTag := decEq

mutual

/-- The JSON form of a type: its text, or an object for vectors and structs. -/
def json : TypeTag → Json
  | vector item => .tagged "vector" (json item)
  | struct owner module name params =>
    .object [("address", toJson owner), ("module", .text module), ("name", .text name),
      ("type_params", .array (jsonParams params))]
  | tag => .text tag.text

def jsonParams : List TypeTag → List Json
  | [] => []
  | tag :: tags => json tag :: jsonParams tags

end

instance : ToJson TypeTag := ⟨json⟩

end TypeTag

end ObjectLedger
