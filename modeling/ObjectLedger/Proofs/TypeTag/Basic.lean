import Mathlib.Algebra.Group.Nat.Defs
import ObjectLedger.Text.Utf8
import ObjectLedger.TypeTag.Parser

/-!
# The parts of a type

Induction over the parts of a type, how deep they go, and what holds of every struct among them.
-/

namespace ObjectLedger.TypeTag

def IsPrimitive : TypeTag → Prop
  | vector _ | struct .. => False
  | _ => True

theorem byParts {P : TypeTag → Prop} (primitive : ∀ t, t.IsPrimitive → P t)
    (vector : ∀ element, P element → P (vector element))
    (struct : ∀ owner module name params, (∀ p ∈ params, P p) → P (struct owner module name params))
    (t : TypeTag) : P t :=
  @TypeTag.rec P (fun ps => ∀ p ∈ ps, P p)
    (primitive bool trivial) (primitive u8 trivial) (primitive u16 trivial) (primitive u32 trivial)
    (primitive u64 trivial) (primitive u128 trivial) (primitive u256 trivial)
    (primitive address trivial) (primitive signer trivial) vector struct
    (fun _ h => absurd h List.not_mem_nil)
    (fun _ _ hp hps _ h => (List.mem_cons.mp h).elim (fun h => h ▸ hp) (hps _)) t

/-! ### Levels -/

mutual

/-- Levels of a type below its root. -/
def height : TypeTag → Nat
  | vector element => height element + 1
  | struct _ _ _ params => paramsHeight params
  | _ => 0

/-- Levels that parameters put below the root; none without parameters. -/
def paramsHeight : List TypeTag → Nat
  | [] => 0
  | p :: ps => max (height p + 1) (paramsHeight ps)

end

theorem height_lt_paramsHeight {p : TypeTag} {params : List TypeTag} (h : p ∈ params) :
    p.height < paramsHeight params := by
  induction params with
  | nil => cases h
  | cons q params ih =>
    rw [paramsHeight]
    rcases List.mem_cons.mp h with rfl | h
    · omega
    · have := ih h
      omega

/-! ### Structs -/

section

variable (P : String → String → Nat → Prop)

mutual

/-- Module, name and number of parameters of every struct in a type have a property. -/
def EveryStruct : TypeTag → Prop
  | vector element => EveryStruct element
  | struct _ module name params => P module name params.length ∧ EveryStructIn params
  | _ => True

def EveryStructIn : List TypeTag → Prop
  | [] => True
  | p :: ps => EveryStruct p ∧ EveryStructIn ps

end

end

theorem EveryStructIn.of_mem {P : String → String → Nat → Prop} {p : TypeTag}
    {params : List TypeTag} (hs : EveryStructIn P params) (h : p ∈ params) : p.EveryStruct P := by
  induction params with
  | nil => cases h
  | cons q params ih =>
    rcases List.mem_cons.mp h with rfl | h
    · exact hs.1
    · exact ih hs.2 h

/-- Every string and list in a type has a length of 32 bits. -/
def Short : TypeTag → Prop :=
  EveryStruct fun module name count =>
    (utf8Bytes module).length < 2 ^ 32 ∧ (utf8Bytes name).length < 2 ^ 32 ∧ count < 2 ^ 32

def HasIdentifiers : TypeTag → Prop :=
  EveryStruct fun module name _ =>
    isIdentifier module.toList = true ∧ isIdentifier name.toList = true

end ObjectLedger.TypeTag
