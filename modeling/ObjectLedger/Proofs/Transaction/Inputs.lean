import Mathlib.Data.Finset.Card
import Mathlib.Data.List.Infix
import ObjectLedger.Proofs.Prelude
import ObjectLedger.Transaction.Inputs

/-!
# What a list of inputs stands for

Each slot stands for a value or for an object. Putting an input into a list finds the first slot that
stands for the same and combines the two there, or appends a slot. So a list of inputs only ever grows
at its end in what it stands for, and inputs can be put in exactly when they agree with each other and
the slots can be numbered.
-/

namespace ObjectLedger

/-! ### Keys -/

/-- What a slot stands for. -/
inductive Input.Key where
  | value (bytes : List UInt8)
  | object (objectId : ObjectId)
  deriving DecidableEq

namespace Input

/-- What an input stands for. -/
def key : Input → Key
  | pure bytes => .value bytes
  | object arg => .object arg.objectId
  | unresolved u => .object u.objectId

theorem sharesSlot_iff {incoming existing : Input} :
    incoming.sharesSlot existing = true ↔ existing.key = incoming.key := by
  cases incoming <;> cases existing <;> simp [sharesSlot, objectId?, key]

/-- Two inputs that stand for the same: one value twice, or two mentions of one object, each of them ready
for the wire or only declared. -/
inductive Alike : Input → Input → Prop
  | value (bytes : List UInt8) : Alike (pure bytes) (pure bytes)
  | objects {x y : ObjectArg} (h : x.objectId = y.objectId) : Alike (object x) (object y)
  | objectDeclared {x : ObjectArg} {v : UnresolvedObject} (h : x.objectId = v.objectId) :
      Alike (object x) (unresolved v)
  | declaredObject {u : UnresolvedObject} {y : ObjectArg} (h : u.objectId = y.objectId) :
      Alike (unresolved u) (object y)
  | declared {u v : UnresolvedObject} (h : u.objectId = v.objectId) :
      Alike (unresolved u) (unresolved v)

theorem alike_of_key_eq {a b : Input} (h : a.key = b.key) : Alike a b := by
  cases a with
  | pure bytes =>
    cases b with
    | pure bytes' =>
      obtain rfl := Key.value.inj h
      exact .value bytes
    | object y => cases h
    | unresolved v => cases h
  | object x =>
    cases b with
    | pure bytes => cases h
    | object y => exact .objects (Key.object.inj h)
    | unresolved v => exact .objectDeclared (Key.object.inj h)
  | unresolved u =>
    cases b with
    | pure bytes => cases h
    | object y => exact .declaredObject (Key.object.inj h)
    | unresolved v => exact .declared (Key.object.inj h)

end Input

/-! ### Agreement -/

/-- A mention that is ready for the wire, mutable as well if that is asked for and the object is shared. -/
def ObjectArg.grant (x : ObjectArg) (isMutable : Bool) : ObjectArg :=
  match x with
  | shared objectId version m => shared objectId version (m || isMutable)
  | other => other

/-- The state of an object that a mention asks for: an exact one, or that of a shared object. -/
inductive Input.Pin where
  | exact (ref : ObjectRef)
  | shared

namespace Input

/-- What an input asks for, unless that is left open. -/
def pin? : Input → Option Pin
  | object (.owned ref) | object (.receiving ref) => some (.exact ref)
  | object (.shared ..) => some .shared
  | pure _ | unresolved _ => none

def isReceived : Input → Bool
  | object (.receiving _) => true
  | unresolved u => u.receiving
  | _ => false

/-- Two inputs that stand for the same do not contradict each other: both are to be received or
neither, and they ask for the same where neither leaves it open. -/
def Agrees (a b : Input) : Prop :=
  a.isReceived = b.isReceived ∧ ∀ p q, a.pin? = some p → b.pin? = some q → p = q

/-- Whether an input asks for a mutable object. -/
def wants : Input → Bool
  | object (.shared _ _ isMutable) => isMutable
  | unresolved u => u.isMutable == some true
  | _ => false

/-- Two inputs that stand for the same in one slot. -/
def meet (existing incoming : Input) : Except BuildError Input :=
  match incoming with
  | pure _ => .ok existing
  | _ => existing.combine incoming

variable {a b c : Input}

theorem objects_combine_eq_ok {x y : ObjectArg} :
    (∃ c, x.combine y = .ok c) ↔ (object x).Agrees (object y) := by
  cases x <;> cases y
  case owned.owned r s =>
    by_cases h : r = s <;> simp [ObjectArg.combine, Agrees, isReceived, pin?, h]
  case receiving.receiving r s =>
    by_cases h : r = s <;> simp [ObjectArg.combine, Agrees, isReceived, pin?, h]
  all_goals simp [ObjectArg.combine, Agrees, isReceived, pin?]

theorem absorb_eq_ok {x : ObjectArg} {u : UnresolvedObject} :
    (∃ c, x.absorb u = .ok c) ↔ (object x).isReceived = u.receiving := by
  cases x <;> cases h : u.receiving <;> simp [ObjectArg.absorb, isReceived, h]

theorem meet_eq_ok (hkey : a.key = b.key) : (∃ c, a.meet b = .ok c) ↔ a.Agrees b := by
  have hmap : ∀ {α : Type} {r : Except BuildError α} {f : α → Input},
      (∃ c, r.map f = .ok c) ↔ ∃ x, r = .ok x := by
    intro α r f
    cases r <;> simp [Except.map]
  cases alike_of_key_eq hkey with
  | value bytes => simp [meet, Agrees, isReceived, pin?]
  | objects _ => exact hmap.trans objects_combine_eq_ok
  | objectDeclared _ =>
    refine hmap.trans (absorb_eq_ok.trans ?_)
    simp [Agrees, isReceived, pin?]
  | declaredObject _ =>
    refine hmap.trans (absorb_eq_ok.trans ?_)
    simp [Agrees, isReceived, pin?, eq_comm]
  | @declared u v _ =>
    refine hmap.trans ?_
    by_cases h : u.receiving = v.receiving <;>
      simp [UnresolvedObject.combine, Agrees, isReceived, pin?, h]

/-! ### What a slot becomes -/

theorem combine_eq_grant {x y z : ObjectArg} (h : x.combine y = .ok z) :
    z = x.grant (object y).wants := by
  cases x <;> cases y
  case shared.shared =>
    cases h
    rfl
  case owned.owned r s =>
    rw [ObjectArg.combine] at h
    split_ifs at h
    cases h
    rfl
  case receiving.receiving r s =>
    rw [ObjectArg.combine] at h
    split_ifs at h
    cases h
    rfl
  all_goals cases h

theorem absorb_eq_grant {x y : ObjectArg} {u : UnresolvedObject} (h : x.absorb u = .ok y) :
    y = x.grant (unresolved u).wants := by
  cases x
  all_goals
    rw [ObjectArg.absorb] at h
    split_ifs at h
    cases h
    rfl

theorem meet_object_eq {x : ObjectArg} (hkey : (object x).key = b.key)
    (h : (object x).meet b = .ok c) : c = object (x.grant b.wants) := by
  cases alike_of_key_eq hkey with
  | objects _ =>
    obtain ⟨z, hz, rfl⟩ := Except.map_eq_ok.mp h
    rw [combine_eq_grant hz]
  | objectDeclared _ =>
    obtain ⟨z, hz, rfl⟩ := Except.map_eq_ok.mp h
    rw [absorb_eq_grant hz]

theorem meet_unresolved_object_eq {u : UnresolvedObject} {y : ObjectArg}
    (h : (unresolved u).meet (object y) = .ok c) : c = object (y.grant (unresolved u).wants) := by
  obtain ⟨z, hz, rfl⟩ := Except.map_eq_ok.mp h
  rw [absorb_eq_grant hz]

theorem meet_unresolved_eq {u v : UnresolvedObject} (h : (unresolved u).meet (unresolved v) = .ok c) :
    c = unresolved
      { objectId := u.objectId
        version := u.version.or v.version
        digest := u.digest.or v.digest
        initialVersion := u.initialVersion.or v.initialVersion
        isMutable := UnresolvedObject.combineMutability u.isMutable v.isMutable
        receiving := u.receiving } := by
  obtain ⟨z, hz, rfl⟩ := Except.map_eq_ok.mp h
  rw [UnresolvedObject.combine] at hz
  split_ifs at hz
  cases hz
  rfl

theorem of_meet (hkey : a.key = b.key) (h : a.meet b = .ok c) :
    c.key = a.key ∧ c.isReceived = a.isReceived ∧ c.pin? = a.pin?.or b.pin? := by
  have hsame := ((meet_eq_ok hkey).mp ⟨c, h⟩).1
  cases alike_of_key_eq hkey with
  | value bytes =>
    cases h
    exact ⟨rfl, rfl, rfl⟩
  | @objects x _ _ | @objectDeclared x _ _ =>
    obtain rfl := meet_object_eq hkey h
    cases x <;> exact ⟨rfl, rfl, rfl⟩
  | @declaredObject _ y _ =>
    obtain rfl := meet_unresolved_object_eq h
    cases y <;> exact ⟨hkey.symm, hsame.symm, rfl⟩
  | declared _ =>
    obtain rfl := meet_unresolved_eq h
    exact ⟨rfl, rfl, rfl⟩

theorem agrees_of_meet (hkey : a.key = b.key) (h : a.meet b = .ok c) (d : Input) :
    c.Agrees d ↔ a.Agrees d ∧ b.Agrees d := by
  obtain ⟨-, hreceived, hpin⟩ := of_meet hkey h
  obtain ⟨hsame, hpins⟩ := (meet_eq_ok hkey).mp ⟨c, h⟩
  rw [Agrees, Agrees, Agrees, hreceived, hpin, ← hsame]
  cases ha : a.pin? with
  | none => simp
  | some p =>
    have hb : ∀ q, b.pin? = some q → p = q := fun q => hpins p q ha
    simp only [Option.some_or, Option.some.injEq]
    constructor
    · rintro ⟨hd, hpd⟩
      exact ⟨⟨hd, hpd⟩, hd, fun q r hq hr => hb q hq ▸ hpd p r rfl hr⟩
    · rintro ⟨⟨hd, hpd⟩, -⟩
      exact ⟨hd, hpd⟩

/-! ### One input -/

def keys (inputs : List Input) : List Key := inputs.map key

theorem keys_getElem?_eq_some {inputs : List Input} {slot : Nat} {k : Key} :
    (keys inputs)[slot]? = some k ↔ ∃ x, inputs[slot]? = some x ∧ x.key = k := by
  rw [keys, List.getElem?_map, Option.map_eq_some_iff]

theorem insert_cases (inputs : List Input) (x : Input) :
    (∃ front existing back, inputs = front ++ existing :: back ∧ x.key ∉ keys front ∧
      existing.key = x.key ∧ insert inputs x =
        (existing.meet x).map fun z => (UInt16.ofNat front.length, front ++ z :: back)) ∨
    (x.key ∉ keys inputs ∧ insert inputs x =
      if inputs.length < UInt16.size then .ok (UInt16.ofNat inputs.length, inputs ++ [x])
      else .error (.tooMany "inputs")) := by
  cases hfind : inputs.findIdx? (x.sharesSlot ·) with
  | none =>
    refine .inr ⟨?_, by rw [insert, hfind]⟩
    intro hmem
    obtain ⟨y, hy, hkey⟩ := List.mem_map.mp hmem
    have := List.findIdx?_eq_none_iff.mp hfind y hy
    rw [sharesSlot_iff.mpr hkey] at this
    cases this
  | some k =>
    obtain ⟨hk, hshare, hfirst⟩ := List.findIdx?_eq_some_iff_getElem.mp hfind
    have hsplit : inputs = inputs.take k ++ inputs[k] :: inputs.drop (k + 1) := by
      rw [List.getElem_cons_drop, List.take_append_drop]
    have hlen : (inputs.take k).length = k := List.length_take_of_le (Nat.le_of_lt hk)
    refine .inl ⟨inputs.take k, inputs[k], inputs.drop (k + 1), hsplit, ?_,
      sharesSlot_iff.mp hshare, ?_⟩
    · intro hmem
      obtain ⟨y, hy, hkey⟩ := List.mem_map.mp hmem
      obtain ⟨j, hj, rfl⟩ := List.mem_iff_getElem.mp hy
      rw [List.getElem_take] at hkey
      exact hfirst j (by omega) (sharesSlot_iff.mpr hkey)
    · have hset : ∀ z, inputs.set k z = inputs.take k ++ z :: inputs.drop (k + 1) := fun z =>
        List.set_eq_take_append_cons_drop.trans (if_pos hk)
      rw [insert, hfind, hlen]
      simp only [List.getElem?_eq_getElem hk, ← hset]
      cases x with
      | pure bytes => simp [meet, Except.map]
      | object x => rfl
      | unresolved u => rfl

theorem keys_replace (front back : List Input) {y z : Input} (h : y.key = z.key) :
    keys (front ++ y :: back) = keys (front ++ z :: back) := by
  simp [keys, h]

theorem insert_eq_ok {inputs inputs' : List Input} {x : Input} {slot : UInt16}
    (hlen : inputs.length ≤ UInt16.size) (h : insert inputs x = .ok (slot, inputs')) :
    inputs'.length ≤ UInt16.size ∧ keys inputs <+: keys inputs' ∧
      (keys inputs')[slot.toNat]? = some x.key := by
  rcases insert_cases inputs x with ⟨front, e, back, rfl, -, hkey, hinsert⟩ | ⟨-, hinsert⟩
  · obtain ⟨z, hz, hslot⟩ := Except.map_eq_ok.mp (hinsert ▸ h)
    cases hslot
    have hzkey := (of_meet hkey hz).1
    rw [List.length_append, List.length_cons] at hlen ⊢
    refine ⟨hlen, keys_replace _ _ hzkey ▸ List.prefix_rfl, ?_⟩
    rw [UInt16.toNat_ofNat_of_lt' (by omega)]
    simp [keys, hzkey, hkey]
  · rw [hinsert] at h
    split_ifs at h with hroom
    cases h
    refine ⟨by rw [List.length_append]; exact hroom, ?_, ?_⟩
    · rw [keys, keys, List.map_append]
      exact List.prefix_append _ _
    · rw [UInt16.toNat_ofNat_of_lt' hroom]
      simp [keys]

theorem nodup_of_insert {inputs inputs' : List Input} {x : Input} {slot : UInt16}
    (hnodup : (keys inputs).Nodup) (h : insert inputs x = .ok (slot, inputs')) :
    (keys inputs').Nodup := by
  rcases insert_cases inputs x with ⟨front, e, back, rfl, -, hkey, hinsert⟩ | ⟨hx, hinsert⟩
  · obtain ⟨z, hz, hslot⟩ := Except.map_eq_ok.mp (hinsert ▸ h)
    cases hslot
    rwa [← keys_replace front back (of_meet hkey hz).1.symm]
  · rw [hinsert] at h
    split_ifs at h
    cases h
    rw [keys, List.map_append, List.map_singleton]
    exact List.nodup_append.mpr ⟨hnodup, List.nodup_singleton _, fun k hk l hl heq => by
      rw [List.mem_singleton.mp hl] at heq
      exact hx (heq ▸ hk)⟩

/-! ### Several inputs -/

/-- The first input that stands for the same as a key. -/
def firstOf (inputs : List Input) (k : Key) : Option Input :=
  inputs.find? fun x => decide (x.key = k)

/-- Inputs to be put into a list contradict neither the slot that they would share nor each other. -/
def Compatible (inputs incoming : List Input) : Prop :=
  (∀ x ∈ incoming, ∀ existing, firstOf inputs x.key = some existing → existing.Agrees x) ∧
    incoming.Pairwise fun x y => x.key = y.key → x.Agrees y

/-- What some inputs stand for that none of a list stands for. -/
def newKeys (inputs incoming : List Input) : Finset Key :=
  (keys incoming).toFinset \ (keys inputs).toFinset

theorem firstOf_of_eq {front back : List Input} {e : Input} {k : Key} (hkey : e.key = k)
    (hfront : k ∉ keys front) : firstOf (front ++ e :: back) k = some e := by
  have hnone : front.find? (fun x => decide (x.key = k)) = none := by
    rw [List.find?_eq_none]
    intro y hy hyk
    exact hfront (List.mem_map.mpr ⟨y, hy, of_decide_eq_true hyk⟩)
  rw [firstOf, List.find?_append, hnone, List.find?_cons_of_pos (by simpa using hkey)]
  rfl

theorem firstOf_of_mem {inputs : List Input} (hnodup : (keys inputs).Nodup) {a : Input}
    (ha : a ∈ inputs) : firstOf inputs a.key = some a := by
  obtain ⟨front, back, rfl⟩ := List.append_of_mem ha
  rw [keys, List.map_append, List.map_cons, List.nodup_append] at hnodup
  exact firstOf_of_eq rfl fun hmem => hnodup.2.2 a.key hmem a.key List.mem_cons_self rfl

theorem firstOf_of_ne {front back : List Input} {e : Input} {k : Key} (hkey : e.key ≠ k) :
    firstOf (front ++ e :: back) k = firstOf (front ++ back) k := by
  rw [firstOf, firstOf, List.find?_append, List.find?_append,
    List.find?_cons_of_neg (by simpa using hkey)]

theorem firstOf_eq_none {inputs : List Input} {k : Key} (h : k ∉ keys inputs) :
    firstOf inputs k = none := by
  rw [firstOf, List.find?_eq_none]
  intro y hy hyk
  exact h (List.mem_map.mpr ⟨y, hy, of_decide_eq_true hyk⟩)

/-- Only the slot that an input goes to is asked anew: whatever agrees with that slot afterwards agrees
with the slot before and with the input. -/
theorem compatible_cons {inputs inputs' incoming : List Input} {x z : Input}
    (hfirst : firstOf inputs' x.key = some z)
    (hother : ∀ k, x.key ≠ k → firstOf inputs k = firstOf inputs' k)
    (hx : ∀ e, firstOf inputs x.key = some e → e.Agrees x)
    (hz : ∀ d, z.Agrees d ↔ (∀ e, firstOf inputs x.key = some e → e.Agrees d) ∧ x.Agrees d) :
    Compatible inputs (x :: incoming) ↔ Compatible inputs' incoming := by
  rw [Compatible, Compatible, List.pairwise_cons]
  constructor
  · rintro ⟨hslots, hpairs, hrest⟩
    refine ⟨fun y hy existing hexisting => ?_, hrest⟩
    have hslot := hslots y (List.mem_cons_of_mem _ hy)
    by_cases hxy : x.key = y.key
    · rw [← hxy, hfirst] at hexisting
      cases hexisting
      exact (hz y).mpr ⟨fun e he => hslot e (hxy ▸ he), hpairs y hy hxy⟩
    · rw [← hother _ hxy] at hexisting
      exact hslot existing hexisting
  · rintro ⟨hslots, hrest⟩
    have hboth : ∀ y ∈ incoming, x.key = y.key →
        (∀ e, firstOf inputs x.key = some e → e.Agrees y) ∧ x.Agrees y := by
      intro y hy hxy
      exact (hz y).mp (hslots y hy z (hxy ▸ hfirst))
    refine ⟨fun y hy existing hexisting => ?_, fun y hy hxy => (hboth y hy hxy).2, hrest⟩
    rcases List.mem_cons.mp hy with rfl | hy
    · exact hx existing hexisting
    · by_cases hxy : x.key = y.key
      · exact (hboth y hy hxy).1 existing (hxy ▸ hexisting)
      · rw [hother _ hxy] at hexisting
        exact hslots y hy existing hexisting

theorem compatible_cons_of_meet {front back incoming : List Input} {e x z : Input}
    (hfront : x.key ∉ keys front) (hkey : e.key = x.key) (hz : e.meet x = .ok z) :
    Compatible (front ++ e :: back) (x :: incoming) ↔
      Compatible (front ++ z :: back) incoming := by
  have hzkey : z.key = x.key := (of_meet hkey hz).1.trans hkey
  have hslot : firstOf (front ++ e :: back) x.key = some e := firstOf_of_eq hkey hfront
  refine compatible_cons (firstOf_of_eq hzkey hfront) (fun k hk => ?_) ?_ fun d => ?_
  · rw [firstOf_of_ne (hkey ▸ hk), firstOf_of_ne (hzkey ▸ hk)]
  · simp only [hslot, Option.some.injEq, forall_eq']
    exact (meet_eq_ok hkey).mp ⟨z, hz⟩
  · simp only [hslot, Option.some.injEq, forall_eq']
    exact agrees_of_meet hkey hz d

theorem compatible_cons_of_new {inputs incoming : List Input} {x : Input}
    (hx : x.key ∉ keys inputs) :
    Compatible inputs (x :: incoming) ↔ Compatible (inputs ++ [x]) incoming := by
  have hslot : firstOf inputs x.key = none := firstOf_eq_none hx
  refine compatible_cons (firstOf_of_eq rfl hx) (fun k hk => ?_) ?_ fun d => ?_
  · rw [firstOf_of_ne hk, List.append_nil]
  · simp [hslot]
  · simp [hslot]

theorem newKeys_cons_of_mem {inputs incoming : List Input} {x : Input} (hx : x.key ∈ keys inputs) :
    newKeys inputs (x :: incoming) = newKeys inputs incoming := by
  rw [newKeys, keys, List.map_cons, List.toFinset_cons,
    Finset.insert_sdiff_of_mem _ (List.mem_toFinset.mpr hx)]
  rfl

theorem card_newKeys_cons {inputs incoming : List Input} {x : Input} (hx : x.key ∉ keys inputs) :
    (newKeys inputs (x :: incoming)).card = (newKeys (inputs ++ [x]) incoming).card + 1 := by
  have hinsert : newKeys inputs (x :: incoming) =
      Insert.insert x.key (newKeys (inputs ++ [x]) incoming) := by
    ext k
    simp only [newKeys, keys, List.map_cons, List.map_append, List.map_nil, Finset.mem_sdiff,
      List.mem_toFinset, List.mem_cons, List.mem_append, List.not_mem_nil, or_false,
      Finset.mem_insert]
    constructor
    · rintro ⟨rfl | hk, hnot⟩
      · exact .inl rfl
      · by_cases hkx : k = x.key
        · exact .inl hkx
        · exact .inr ⟨hk, not_or.mpr ⟨hnot, hkx⟩⟩
    · rintro (rfl | ⟨hk, hnot⟩)
      · exact ⟨.inl rfl, hx⟩
      · exact ⟨.inr hk, fun h => hnot (.inl h)⟩
  rw [hinsert, Finset.card_insert_of_notMem]
  simp [newKeys, keys]

/-- What is still to come takes the same number of slots in the end, however many are there already. -/
theorem length_add_card_newKeys_of_insert {inputs inputs' incoming : List Input} {x : Input}
    {slot : UInt16} (h : insert inputs x = .ok (slot, inputs')) :
    inputs'.length + (newKeys inputs' incoming).card =
      inputs.length + (newKeys inputs (x :: incoming)).card := by
  rcases insert_cases inputs x with ⟨front, e, back, rfl, -, hkey, hinsert⟩ | ⟨hx, hinsert⟩
  · obtain ⟨z, hz, hslot⟩ := Except.map_eq_ok.mp (hinsert ▸ h)
    cases hslot
    have hkeys := keys_replace front back (of_meet hkey hz).1
    rw [newKeys_cons_of_mem (by simp [keys, hkey]), newKeys, newKeys, hkeys, List.length_append,
      List.length_append, List.length_cons, List.length_cons]
  · rw [hinsert] at h
    split_ifs at h
    cases h
    rw [card_newKeys_cons hx, List.length_append, List.length_singleton, Nat.add_assoc,
      Nat.add_comm 1]

theorem insertAll_cons_eq_ok {inputs incoming : List Input} {acc : List UInt16} {x : Input}
    {r : List UInt16 × List Input} :
    insertAll inputs acc (x :: incoming) = .ok r ↔
      ∃ slot inputs', insert inputs x = .ok (slot, inputs') ∧
        insertAll inputs' (slot :: acc) incoming = .ok r := by
  rw [insertAll]
  rcases insert inputs x with fault | ⟨slot, inputs'⟩
  · simp
  · simp

/-- Every input has its slot in the end, what the slots stood for they still stand for, and there are
no more of them than needed. -/
theorem insertAll_eq_ok {incoming : List Input} :
    ∀ {inputs inputs' : List Input} {acc slots : List UInt16}, inputs.length ≤ UInt16.size →
      insertAll inputs acc incoming = .ok (slots, inputs') →
      inputs'.length = inputs.length + (newKeys inputs incoming).card ∧
        keys inputs <+: keys inputs' ∧
        ∃ new, slots = acc.reverse ++ new ∧
          List.Forall₂ (fun x (slot : UInt16) => (keys inputs')[slot.toNat]? = some x.key)
            incoming new := by
  induction incoming with
  | nil =>
    intro inputs inputs' acc slots hlen h
    cases h
    exact ⟨by simp [newKeys, keys], List.prefix_rfl, [], (List.append_nil _).symm, .nil⟩
  | cons x incoming ih =>
    intro inputs inputs' acc slots hlen h
    obtain ⟨slot, inputs₁, hinsert, h⟩ := insertAll_cons_eq_ok.mp h
    obtain ⟨hlen₁, hprefix₁, hslot⟩ := insert_eq_ok hlen hinsert
    obtain ⟨hlength, hprefix, new, rfl, hnew⟩ := ih hlen₁ h
    rw [length_add_card_newKeys_of_insert hinsert] at hlength
    refine ⟨hlength, hprefix₁.trans hprefix, slot :: new, by simp, .cons ?_ hnew⟩
    obtain ⟨more, hmore⟩ := hprefix
    rw [← hmore, List.getElem?_append_left (List.getElem?_eq_some_iff.mp hslot).1, hslot]

theorem nodup_of_insertAll {incoming : List Input} :
    ∀ {inputs inputs' : List Input} {acc slots : List UInt16}, (keys inputs).Nodup →
      insertAll inputs acc incoming = .ok (slots, inputs') → (keys inputs').Nodup := by
  induction incoming with
  | nil =>
    intro inputs inputs' acc slots hnodup h
    cases h
    exact hnodup
  | cons x incoming ih =>
    intro inputs inputs' acc slots hnodup h
    obtain ⟨slot, inputs₁, hinsert, h⟩ := insertAll_cons_eq_ok.mp h
    exact ih (nodup_of_insert hnodup hinsert) h

theorem insertAll_isOk {incoming : List Input} :
    ∀ {inputs : List Input} {acc : List UInt16}, inputs.length ≤ UInt16.size →
      ((∃ r, insertAll inputs acc incoming = .ok r) ↔
        Compatible inputs incoming ∧
          inputs.length + (newKeys inputs incoming).card ≤ UInt16.size) := by
  induction incoming with
  | nil =>
    intro inputs acc hlen
    simpa [insertAll, Compatible, newKeys, keys] using hlen
  | cons x incoming ih =>
    intro inputs acc hlen
    rw [insertAll]
    rcases insert_cases inputs x with ⟨front, e, back, rfl, hfront, hkey, hinsert⟩ | ⟨hx, hinsert⟩
    · have hmem : x.key ∈ keys (front ++ e :: back) := by simp [keys, hkey]
      rw [hinsert, newKeys_cons_of_mem hmem]
      cases hz : e.meet x with
      | error fault =>
        simp only [Except.map, reduceCtorEq, exists_false, false_iff]
        rintro ⟨⟨hfirst, -⟩, -⟩
        have hagrees := hfirst x List.mem_cons_self e (firstOf_of_eq hkey hfront)
        obtain ⟨z, hz'⟩ := (meet_eq_ok hkey).mpr hagrees
        rw [hz] at hz'
        cases hz'
      | ok z =>
        have hkeys := keys_replace front back (of_meet hkey hz).1
        have hlength : (front ++ z :: back).length = (front ++ e :: back).length := by simp
        rw [compatible_cons_of_meet hfront hkey hz]
        have h := @ih (front ++ z :: back) (UInt16.ofNat front.length :: acc) (hlength ▸ hlen)
        rw [hlength, newKeys, hkeys] at h
        exact h
    · rw [hinsert, card_newKeys_cons hx, compatible_cons_of_new hx]
      by_cases hroom : inputs.length < UInt16.size
      · have hlength : (inputs ++ [x]).length = inputs.length + 1 := by simp
        rw [if_pos hroom]
        refine (ih (hlength ▸ hroom)).trans ?_
        rw [hlength, Nat.add_assoc, Nat.add_comm 1]
      · rw [if_neg hroom]
        simp only [reduceCtorEq, exists_false, false_iff, not_and]
        omega

end Input

end ObjectLedger
