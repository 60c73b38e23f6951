import ObjectLedger.Transaction.BuildError

/-!
# Inputs without repetition

Equal values share a slot, and so do all mentions of one object, which are combined into a single one
when they do not contradict each other.
-/

namespace ObjectLedger

namespace UnresolvedObject

/-- The word for the kind of reference that is declared. -/
def kind (u : UnresolvedObject) : String := if u.receiving then "receiving" else "object"

/-- Mutability of two mentions: a yes wins, then a no. -/
def combineMutability : Option Bool → Option Bool → Option Bool
  | some true, _ | _, some true => some true
  | some false, _ | _, some false => some false
  | none, none => none

/-- Two declarations of one object: what the first leaves open comes from the second. -/
def combine (a b : UnresolvedObject) : Except BuildError UnresolvedObject :=
  if a.receiving ≠ b.receiving then .error (.conflictingInput a.objectId a.kind b.kind)
  else .ok
    { objectId := a.objectId
      version := a.version.or b.version
      digest := a.digest.or b.digest
      initialVersion := a.initialVersion.or b.initialVersion
      isMutable := combineMutability a.isMutable b.isMutable
      receiving := a.receiving }

end UnresolvedObject

namespace ObjectArg

/-- Two mentions of one object that are ready for the wire: both shared, or the same reference. -/
def combine (a b : ObjectArg) : Except BuildError ObjectArg :=
  match a, b with
  | shared objectId version m, shared _ _ n => .ok (shared objectId version (m || n))
  | owned r, owned s =>
    if r = s then .ok a else .error (.conflictingInput r.objectId "version" "different version")
  | receiving r, receiving s =>
    if r = s then .ok a else .error (.conflictingInput r.objectId "version" "different version")
  | a, b => .error (.conflictingInput a.objectId a.kind b.kind)

/-- A mention that is ready for the wire, and a declaration of the same object. -/
def absorb (a : ObjectArg) (u : UnresolvedObject) : Except BuildError ObjectArg :=
  match a with
  | shared objectId version m =>
    if u.receiving then .error (.conflictingInput u.objectId a.kind "receiving")
    else .ok (shared objectId version (m || u.isMutable == some true))
  | owned _ =>
    if u.receiving then .error (.conflictingInput u.objectId a.kind "receiving") else .ok a
  | receiving _ =>
    if u.receiving then .ok a else .error (.conflictingInput u.objectId a.kind "object")

end ObjectArg

namespace Input

/-- Two inputs that name the same object as one. -/
def combine (existing incoming : Input) : Except BuildError Input :=
  match existing, incoming with
  | object a, object b => (a.combine b).map object
  | unresolved u, object a => (a.absorb u).map object
  | object a, unresolved u => (a.absorb u).map object
  | unresolved a, unresolved b => (a.combine b).map unresolved
  | _, _ => .error (.internal .mergeOfPure)

/-- Whether an input takes the slot of another one. -/
def sharesSlot (incoming existing : Input) : Bool :=
  match incoming with
  | pure bytes => decide (existing = pure bytes)
  | other => existing.objectId?.isSome && decide (existing.objectId? = other.objectId?)

/-- Puts an input into a list, and gives its slot and the new list. -/
def insert (inputs : List Input) (input : Input) : Except BuildError (UInt16 × List Input) :=
  match inputs.findIdx? (input.sharesSlot ·) with
  | some index =>
    match input with
    | pure _ => .ok (UInt16.ofNat index, inputs)
    | _ =>
      match inputs[index]? with
      | some existing =>
        (existing.combine input).map fun combined =>
          (UInt16.ofNat index, inputs.set index combined)
      | none => .ok (UInt16.ofNat index, inputs)
  | none =>
    if inputs.length < UInt16.size then .ok (UInt16.ofNat inputs.length, inputs ++ [input])
    else .error (.tooMany "inputs")

/-- Puts inputs into a list one after the other, and gives their slots and the new list. The slots so
far are kept in reverse. -/
def insertAll (inputs : List Input) (slots : List UInt16) :
    List Input → Except BuildError (List UInt16 × List Input)
  | [] => .ok (slots.reverse, inputs)
  | input :: rest =>
    match insert inputs input with
    | .ok (slot, inputs) => insertAll inputs (slot :: slots) rest
    | .error e => .error e

end Input

end ObjectLedger
