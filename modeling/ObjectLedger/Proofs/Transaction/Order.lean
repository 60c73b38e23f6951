import ObjectLedger.Proofs.Resolve.Mentions
import ObjectLedger.Proofs.Transaction.Growth

/-!
# The order in which inputs are added

What the mentions of one object declare is gathered without regard to what a slot can show of it, so that
gathering is associative, and commutes where no two mentions declare different versions. The slot shows what
was gathered. So the order of inputs decides neither whether they can be added nor what the slots stand for,
and in a slot it decides at most between versions of which an exact reference is not one.
-/

namespace ObjectLedger

/-! ### What is gathered -/

/-- A value, or all that is declared about an object and the state that it is required to have. -/
inductive Gathered where
  | value (bytes : List UInt8)
  | object (declared : UnresolvedObject) (state : Option ObjectState)

namespace Gathered

/-- What is gathered with more that is gathered behind it. -/
def fill : Gathered → Gathered → Gathered
  | object u s, object v t => object (u.filledFrom v) (s.or t)
  | object u s, value _ => object u s
  | value _, g => g

def input : Gathered → Input
  | value bytes => .pure bytes
  | object u none => .unresolved u
  | object u (some s) => s.input u.objectId u.receiving (u.isMutable == some true)

def into : Option Gathered → Gathered → Option Gathered
  | none, g => some g
  | some h, g => some (h.fill g)

/-- What mentions declare, the first one first. -/
def all (gs : List Gathered) : Option Gathered := gs.foldl into none

theorem filledFrom_assoc (u v w : UnresolvedObject) :
    (u.filledFrom v).filledFrom w = u.filledFrom (v.filledFrom w) := by
  simp only [UnresolvedObject.filledFrom, Option.or_assoc, Input.combineMutability_assoc]

theorem fill_assoc (g h i : Gathered) : (g.fill h).fill i = g.fill (h.fill i) := by
  cases g with
  | value bytes => cases h <;> rfl
  | object u s =>
    cases h with
    | value bytes => rfl
    | object v t =>
      cases i with
      | value bytes => rfl
      | object w r => simp only [fill, filledFrom_assoc, Option.or_assoc]

theorem into_right_comm {g h : Gathered} (hcomm : g.fill h = h.fill g) (slot : Option Gathered) :
    into (into slot g) h = into (into slot h) g := by
  cases slot with
  | none => exact congrArg some hcomm
  | some i =>
    simp only [into, fill_assoc]
    rw [hcomm]

theorem all_perm {gs hs : List Gathered} (h : gs.Perm hs)
    (hcomm : ∀ g ∈ gs, ∀ i ∈ gs, g.fill i = i.fill g) : all gs = all hs :=
  h.foldl_eq' (fun g hg i hi slot => into_right_comm (hcomm g hg i hi) slot) none

end Gathered

namespace Input

/-- What an input declares. -/
def gathered : Input → Gathered
  | pure bytes => .value bytes
  | unresolved u => .object u none
  | object x =>
    .object ⟨x.objectId, none, none, none, (object x).mutability?, (object x).isReceived⟩ (some x.state)

theorem input_gathered (x : Input) : x.gathered.input = x := by
  cases x with
  | pure bytes => rfl
  | unresolved u => rfl
  | object arg =>
    cases arg with
    | shared objectId version m => cases m <;> rfl
    | owned ref => rfl
    | receiving ref => rfl

theorem gathered_of_key_object {x : Input} {objectId : ObjectId} (h : x.key = .object objectId) :
    ∃ u s, x.gathered = .object u s ∧ u.objectId = objectId ∧ u.isMutable = x.mutability? ∧
      u.receiving = x.isReceived := by
  cases x with
  | pure bytes => cases h
  | unresolved u => exact ⟨u, none, rfl, Key.object.inj h, rfl, rfl⟩
  | object y => exact ⟨_, _, rfl, Key.object.inj h, rfl, rfl⟩

theorem meet_input {g : Gathered} {x z : Input} (hkey : g.input.key = x.key)
    (h : g.input.meet x = .ok z) : z = (g.fill x.gathered).input := by
  cases g with
  | value bytes =>
    cases x with
    | pure bytes' =>
      cases h
      cases hkey
      rfl
    | object y => cases hkey
    | unresolved v => cases hkey
  | object u s =>
    cases s with
    | some s =>
      cases s with
      | shared version =>
        obtain rfl := meet_object_eq hkey h
        obtain ⟨v, t, hx, -, hmutable, -⟩ := gathered_of_key_object hkey.symm
        rw [hx, wants_eq, ← hmutable]
        have hwants := wants_combineMutability u.isMutable v.isMutable
        exact congrArg (fun m => object (.shared u.objectId version m)) hwants.symm
      | exact ref =>
        obtain rfl := meet_object_eq hkey h
        obtain ⟨v, t, hx, -⟩ := gathered_of_key_object hkey.symm
        rw [hx]
        show object (ObjectArg.grant (if u.receiving then .receiving ref else .owned ref) _) =
          object (if u.receiving then .receiving ref else .owned ref)
        cases u.receiving <;> rfl
    | none =>
      cases x with
      | pure bytes => cases hkey
      | object y =>
        have hreceived : u.receiving = (object y).isReceived := ((meet_eq_ok hkey).mp ⟨z, h⟩).1
        obtain rfl := meet_unresolved_object_eq h
        cases y with
        | shared objectId version m =>
          obtain rfl : u.objectId = objectId := Key.object.inj hkey
          have hwants : (UnresolvedObject.combineMutability u.isMutable (some m) == some true) =
              (m || u.isMutable == some true) := by
            rw [wants_combineMutability, Bool.or_comm]
            cases m <;> rfl
          exact congrArg (fun m => object (.shared u.objectId version m)) hwants.symm
        | owned ref =>
          show object (.owned ref) = object (if u.receiving then .receiving ref else .owned ref)
          rw [hreceived]
          rfl
        | receiving ref =>
          show object (.receiving ref) = object (if u.receiving then .receiving ref else .owned ref)
          rw [hreceived]
          rfl
      | unresolved v => exact meet_unresolved_eq h

/-! ### When mentions commute -/

end Input

/-- Two declarations of one object do not differ in a version or digest that both give. -/
structure UnresolvedObject.Concurs (u v : UnresolvedObject) : Prop where
  version : ∀ m ∈ u.version, ∀ n ∈ v.version, m = n
  digest : ∀ d ∈ u.digest, ∀ e ∈ v.digest, d = e
  initialVersion : ∀ m ∈ u.initialVersion, ∀ n ∈ v.initialVersion, m = n

theorem or_comm_of_eq {α : Type} {x y : Option α} (h : ∀ a ∈ x, ∀ b ∈ y, a = b) : x.or y = y.or x := by
  cases x with
  | none => cases y <;> rfl
  | some a =>
    cases y with
    | none => rfl
    | some b => exact congrArg some (h a rfl b rfl)

theorem Gathered.fill_comm {u v : UnresolvedObject} {s t : Option ObjectState}
    (hid : u.objectId = v.objectId) (hreceiving : u.receiving = v.receiving) (hdeclared : u.Concurs v)
    (hstate : ∀ p ∈ s, ∀ q ∈ t, p = q) : (object u s).fill (object v t) = (object v t).fill (object u s) := by
  simp only [fill, UnresolvedObject.filledFrom, hid, hreceiving, or_comm_of_eq hdeclared.version,
    or_comm_of_eq hdeclared.digest, or_comm_of_eq hdeclared.initialVersion, or_comm_of_eq hstate,
    Input.combineMutability_comm u.isMutable]

namespace Input

/-- Two mentions of one object do not contradict each other in what is not compared when they meet: the
initial version of a shared object, and what two declarations give. -/
def Concurs : Input → Input → Prop
  | object (.shared _ m _), object (.shared _ n _) => m = n
  | unresolved u, unresolved v => u.Concurs v
  | _, _ => True

variable {a b : Input}

theorem state_eq {x y : ObjectArg} (hagrees : (object x).Agrees (object y))
    (h : (object x).Concurs (object y)) : x.state = y.state := by
  obtain ⟨hreceived, hpins⟩ := hagrees
  cases x with
  | shared objectId m isMutable =>
    cases y with
    | shared objectId' n isMutable' => exact congrArg ObjectState.shared h
    | owned ref => cases hpins _ _ rfl rfl
    | receiving ref => cases hreceived
  | owned ref =>
    cases y with
    | shared objectId n isMutable => cases hpins _ _ rfl rfl
    | owned ref' => exact congrArg ObjectState.exact (Pin.exact.inj (hpins _ _ rfl rfl))
    | receiving ref' => cases hreceived
  | receiving ref =>
    cases y with
    | shared objectId n isMutable => cases hreceived
    | owned ref' => cases hreceived
    | receiving ref' => exact congrArg ObjectState.exact (Pin.exact.inj (hpins _ _ rfl rfl))

theorem gathered_comm (hkey : a.key = b.key) (hagrees : a.Agrees b) (h : a.Concurs b) :
    a.gathered.fill b.gathered = b.gathered.fill a.gathered := by
  have hreceived := hagrees.1
  cases alike_of_key_eq hkey with
  | value bytes => rfl
  | objects hid =>
    refine Gathered.fill_comm hid hreceived ⟨nofun, nofun, nofun⟩ ?_
    rintro p ⟨⟩ q ⟨⟩
    exact state_eq hagrees h
  | objectDeclared hid =>
    refine Gathered.fill_comm hid hreceived ⟨nofun, nofun, nofun⟩ ?_
    exact fun _ _ => nofun
  | declaredObject hid =>
    refine Gathered.fill_comm hid hreceived ⟨?_, ?_, ?_⟩ nofun
    · exact fun _ _ => nofun
    · exact fun _ _ => nofun
    · exact fun _ _ => nofun
  | declared hid => exact Gathered.fill_comm hid hreceived h nofun

/-! ### Versions aside -/

/-- An input without the versions and the digest that are not compared when mentions meet. -/
def unversioned : Input → Input
  | object (.shared objectId _ isMutable) => object (.shared objectId 0 isMutable)
  | unresolved u => unresolved { u with version := none, digest := none, initialVersion := none }
  | x => x

theorem key_unversioned (x : Input) : x.unversioned.key = x.key := by
  cases x with
  | pure bytes => rfl
  | object y => cases y <;> rfl
  | unresolved u => rfl

theorem isReceived_unversioned (x : Input) : x.unversioned.isReceived = x.isReceived := by
  cases x with
  | pure bytes => rfl
  | object y => cases y <;> rfl
  | unresolved u => rfl

theorem pin?_unversioned (x : Input) : x.unversioned.pin? = x.pin? := by
  cases x with
  | pure bytes => rfl
  | object y => cases y <;> rfl
  | unresolved u => rfl

theorem Agrees.unversioned (h : a.Agrees b) : a.unversioned.Agrees b.unversioned := by
  rw [Agrees, isReceived_unversioned, isReceived_unversioned, pin?_unversioned, pin?_unversioned]
  exact h

theorem concurs_unversioned (a b : Input) : a.unversioned.Concurs b.unversioned := by
  cases a with
  | pure bytes => trivial
  | object x =>
    cases x with
    | owned ref => trivial
    | receiving ref => trivial
    | shared objectId m isMutable =>
      cases b with
      | pure bytes => trivial
      | unresolved v => trivial
      | object y => cases y <;> trivial
  | unresolved u =>
    cases b with
    | pure bytes => trivial
    | object y => cases y <;> trivial
    | unresolved v => exact ⟨nofun, nofun, nofun⟩

end Input

namespace Gathered

/-- What is gathered, without versions and digests of declarations. -/
def unversioned : Gathered → Gathered
  | value bytes => value bytes
  | object u s =>
    object { u with version := none, digest := none, initialVersion := none }
      (s.map fun
        | .shared _ => .shared 0
        | .exact ref => .exact ref)

theorem unversioned_fill (g h : Gathered) : (g.fill h).unversioned = g.unversioned.fill h.unversioned := by
  cases g with
  | value bytes => cases h <;> rfl
  | object u s =>
    cases h with
    | value bytes => rfl
    | object v t => cases s <;> rfl

theorem unversioned_into (slot : Option Gathered) (g : Gathered) :
    (into slot g).map unversioned = into (slot.map unversioned) g.unversioned := by
  cases slot with
  | none => rfl
  | some h => exact congrArg some (unversioned_fill h g)

theorem unversioned_all (gs : List Gathered) : (all gs).map unversioned = all (gs.map unversioned) := by
  have hfrom : ∀ slot, (gs.foldl into slot).map unversioned =
      (gs.map unversioned).foldl into (slot.map unversioned) := by
    induction gs with
    | nil => exact fun _ => rfl
    | cons g gs ih =>
      intro slot
      rw [List.foldl_cons, ih, unversioned_into]
      rfl
  exact hfrom none

theorem unversioned_input (g : Gathered) : g.input.unversioned = g.unversioned.input := by
  cases g with
  | value bytes => rfl
  | object u s =>
    rcases s with _ | version | ref
    · rfl
    · rfl
    · show (Input.object (if u.receiving then .receiving ref else .owned ref)).unversioned =
        .object (if u.receiving then .receiving ref else .owned ref)
      cases u.receiving <;> rfl

theorem unversioned_map_input (slot : Option Gathered) :
    (slot.map input).map Input.unversioned = (slot.map unversioned).map input := by
  cases slot with
  | none => rfl
  | some g => exact congrArg some g.unversioned_input

end Gathered

namespace Input

theorem gathered_unversioned (x : Input) : x.unversioned.gathered = x.gathered.unversioned := by
  cases x with
  | pure bytes => rfl
  | object y => cases y <;> rfl
  | unresolved u => rfl

/-! ### Lists of inputs -/

variable {inputs inputs' xs ys : List Input}

/-- What the mentions with a key declare, in their order. -/
def gatheredOf (xs : List Input) (k : Key) : List Gathered :=
  (xs.filter fun x => decide (x.key = k)).map gathered

theorem firstOf_insert {x : Input} {slot : UInt16} {held : Key → Option Gathered}
    (hheld : ∀ k, firstOf inputs k = (held k).map Gathered.input) (h : insert inputs x = .ok (slot, inputs'))
    (k : Key) : firstOf inputs' k = ((gatheredOf [x] k).foldl Gathered.into (held k)).map Gathered.input := by
  have hmeet := (unites_of_insert h).slots k
  by_cases hk : x.key = k
  · subst hk
    rw [firstOf_cons_self, hheld] at hmeet
    have hkey := ofKey_firstOf inputs x.key
    rw [hheld] at hkey
    have hgathered : gatheredOf [x] x.key = [x.gathered] := by simp [gatheredOf]
    rw [hgathered, List.foldl_cons, List.foldl_nil]
    cases hslot : held x.key with
    | none =>
      rw [hslot] at hmeet
      rw [← Except.ok.inj hmeet]
      exact congrArg some x.input_gathered.symm
    | some g =>
      rw [hslot] at hmeet hkey
      obtain ⟨z, hz, hfirst⟩ := Except.map_eq_ok.mp hmeet
      rw [← hfirst, meet_input (hkey _ rfl) hz]
      rfl
  · have hgathered : gatheredOf [x] k = [] := by simp [gatheredOf, hk]
    rw [firstOf_cons_of_ne [] hk] at hmeet
    rw [hgathered, List.foldl_nil, ← hheld]
    exact (Except.ok.inj ((meetSlots_none _).symm.trans hmeet)).symm

theorem firstOf_insertAll {xs : List Input} :
    ∀ {inputs inputs' : List Input} {acc slots : List UInt16} {held : Key → Option Gathered},
      (∀ k, firstOf inputs k = (held k).map Gathered.input) →
      insertAll inputs acc xs = .ok (slots, inputs') →
      ∀ k, firstOf inputs' k = ((gatheredOf xs k).foldl Gathered.into (held k)).map Gathered.input := by
  induction xs with
  | nil =>
    intro inputs inputs' acc slots held hheld h
    cases h
    exact hheld
  | cons x xs ih =>
    intro inputs inputs' acc slots held hheld h k
    obtain ⟨slot, inputs₁, hinsert, h⟩ := insertAll_cons_eq_ok.mp h
    have hcons : gatheredOf (x :: xs) k = gatheredOf [x] k ++ gatheredOf xs k := by
      rw [gatheredOf, gatheredOf, gatheredOf, ← List.map_append, ← List.filter_append]
      rfl
    rw [ih (firstOf_insert hheld hinsert) h k, hcons, List.foldl_append]

theorem mem_keys_insertAll {xs : List Input} :
    ∀ {inputs inputs' : List Input} {acc slots : List UInt16},
      insertAll inputs acc xs = .ok (slots, inputs') →
      ∀ k, k ∈ keys inputs' ↔ k ∈ keys inputs ∨ k ∈ keys xs := by
  induction xs with
  | nil =>
    intro inputs inputs' acc slots h k
    cases h
    simp [keys]
  | cons x xs ih =>
    intro inputs inputs' acc slots h k
    obtain ⟨slot, inputs₁, hinsert, h⟩ := insertAll_cons_eq_ok.mp h
    rw [ih h, (unites_of_insert hinsert).mem_keys]
    simp [keys, or_assoc]

theorem Agrees.refl (a : Input) : a.Agrees a :=
  ⟨rfl, fun _ _ hp hq => Option.some.inj (hp.symm.trans hq)⟩

/-- All mentions of one thing agree with each other. -/
def Consistent (xs : List Input) : Prop := xs.Pairwise fun x y => x.key = y.key → x.Agrees y

theorem Consistent.agrees (h : Consistent xs) {x y : Input} (hx : x ∈ xs) (hy : y ∈ xs)
    (hkey : x.key = y.key) : x.Agrees y := by
  have hflip : xs.Pairwise (flip fun x y => x.key = y.key → x.Agrees y) :=
    h.imp fun hagrees heq => (hagrees heq.symm).symm
  exact List.Pairwise.forall_of_forall_of_flip (fun x _ _ => .refl x) h hflip hx hy hkey

theorem Consistent.perm (h : Consistent xs) (hperm : xs.Perm ys) : Consistent ys :=
  hperm.pairwise h fun hagrees heq => (hagrees heq.symm).symm

/-- Where mentions agree, their order decides between versions at most, and not even that where no two
mentions declare different ones. -/
theorem all_gatheredOf_perm (hperm : xs.Perm ys) (hagrees : Consistent xs) (k : Key) :
    (Gathered.all (gatheredOf xs k)).map Gathered.unversioned =
        (Gathered.all (gatheredOf ys k)).map Gathered.unversioned ∧
      ((∀ x ∈ xs, ∀ y ∈ xs, x.key = k → y.key = k → x.Concurs y) →
        Gathered.all (gatheredOf xs k) = Gathered.all (gatheredOf ys k)) := by
  have hgathered : (gatheredOf xs k).Perm (gatheredOf ys k) := (hperm.filter _).map _
  have hmem : ∀ g ∈ gatheredOf xs k, ∃ x ∈ xs, x.key = k ∧ x.gathered = g := by
    intro g hg
    obtain ⟨x, hx, rfl⟩ := List.mem_map.mp hg
    obtain ⟨hx, hk⟩ := List.mem_filter.mp hx
    exact ⟨x, hx, of_decide_eq_true hk, rfl⟩
  constructor
  · rw [Gathered.unversioned_all, Gathered.unversioned_all]
    refine Gathered.all_perm (hgathered.map _) ?_
    intro g' hg' i' hi'
    obtain ⟨g, hg, rfl⟩ := List.mem_map.mp hg'
    obtain ⟨i, hi, rfl⟩ := List.mem_map.mp hi'
    obtain ⟨x, hx, hxk, rfl⟩ := hmem g hg
    obtain ⟨y, hy, hyk, rfl⟩ := hmem i hi
    have hkey : x.key = y.key := hxk.trans hyk.symm
    rw [← gathered_unversioned, ← gathered_unversioned]
    refine gathered_comm ?_ (hagrees.agrees hx hy hkey).unversioned (concurs_unversioned x y)
    rw [key_unversioned, key_unversioned, hkey]
  · intro hconcurs
    refine Gathered.all_perm hgathered ?_
    intro g hg i hi
    obtain ⟨x, hx, hxk, rfl⟩ := hmem g hg
    obtain ⟨y, hy, hyk, rfl⟩ := hmem i hi
    have hkey : x.key = y.key := hxk.trans hyk.symm
    exact gathered_comm hkey (hagrees.agrees hx hy hkey) (hconcurs x hx y hy hxk hyk)

end Input

/-! ### Inputs added to a transaction -/

namespace Transaction

def addInputs (tx : Transaction) : List Input → Except BuildError Transaction
  | [] => .ok tx
  | x :: xs =>
    match tx.addInput x with
    | .ok (_, tx) => addInputs tx xs
    | .error e => .error e

variable {xs ys : List Input} {tx tx' : Transaction}

theorem addInputs_eq (xs : List Input) :
    ∀ (tx : Transaction) (acc : List UInt16),
      tx.addInputs xs = (Input.insertAll tx.inputs acc xs).map fun r => { tx with inputs := r.2 } := by
  induction xs with
  | nil => exact fun _ _ => rfl
  | cons x xs ih =>
    intro tx acc
    rw [addInputs, addInput, Input.insertAll]
    cases Input.insert tx.inputs x with
    | error e => rfl
    | ok r => exact ih _ _

theorem exists_addInputs :
    (∃ tx, empty.addInputs xs = .ok tx) ↔
      Input.Consistent xs ∧ (Input.keys xs).toFinset.card ≤ UInt16.size := by
  have hmap : (∃ tx, empty.addInputs xs = .ok tx) ↔ ∃ r, Input.insertAll [] [] xs = .ok r := by
    rw [addInputs_eq xs empty []]
    simp only [Except.map_eq_ok]
    exact ⟨fun ⟨_, r, hr, _⟩ => ⟨r, hr⟩, fun ⟨r, hr⟩ => ⟨_, r, hr, rfl⟩⟩
  rw [hmap, Input.insertAll_isOk (Nat.zero_le _)]
  simp [Input.Compatible, Input.Consistent, Input.newKeys, Input.firstOf, Input.keys]

theorem slots_of_addInputs (h : empty.addInputs xs = .ok tx) :
    (Input.keys tx.inputs).Nodup ∧ (∀ k, k ∈ Input.keys tx.inputs ↔ k ∈ Input.keys xs) ∧
      ∀ k, Input.firstOf tx.inputs k = (Gathered.all (Input.gatheredOf xs k)).map Gathered.input := by
  rw [addInputs_eq xs empty []] at h
  obtain ⟨⟨slots, inputs⟩, hinsert, rfl⟩ := Except.map_eq_ok.mp h
  have hnodup : (Input.keys empty.inputs).Nodup := List.nodup_nil
  have hfirst : ∀ k, Input.firstOf empty.inputs k = (none : Option Gathered).map Gathered.input :=
    fun _ => rfl
  refine ⟨Input.nodup_of_insertAll hnodup hinsert, fun k => ?_, Input.firstOf_insertAll hfirst hinsert⟩
  rw [Input.mem_keys_insertAll hinsert]
  simp [empty, Input.keys]

/-- **The order of inputs decides between versions at most.** Inputs can be added in one order if they can
be in the other, which is if all mentions of one object are of one kind and, where exact, of one reference.
The slots stand for the same. Each holds what its mentions declare, of which the first one wins in a version,
and that is the same in both orders but for versions that two mentions declare differently. -/
theorem addInputs_perm (h : xs.Perm ys) :
    ((∃ tx, empty.addInputs xs = .ok tx) ↔
        Input.Consistent xs ∧ (Input.keys xs).toFinset.card ≤ UInt16.size) ∧
      ((∃ tx, empty.addInputs xs = .ok tx) ↔ ∃ tx, empty.addInputs ys = .ok tx) ∧
      ∀ tx tx', empty.addInputs xs = .ok tx → empty.addInputs ys = .ok tx' →
        (Input.keys tx.inputs).Nodup ∧ (Input.keys tx.inputs).Perm (Input.keys tx'.inputs) ∧
        (∀ k, Input.firstOf tx.inputs k = (Gathered.all (Input.gatheredOf xs k)).map Gathered.input) ∧
        ∀ a ∈ tx.inputs, ∀ b ∈ tx'.inputs, a.key = b.key →
          a.unversioned = b.unversioned ∧
            ((∀ x ∈ xs, ∀ y ∈ xs, x.key = a.key → y.key = a.key → x.Concurs y) → a = b) := by
  have hkeys : (Input.keys xs).Perm (Input.keys ys) := h.map _
  refine ⟨exists_addInputs, ?_, fun tx tx' hxs hys => ?_⟩
  · rw [exists_addInputs, exists_addInputs, List.toFinset_eq_of_perm _ _ hkeys]
    exact and_congr_left' ⟨fun hagrees => hagrees.perm h, fun hagrees => hagrees.perm h.symm⟩
  obtain ⟨hnodup, hmem, hslots⟩ := slots_of_addInputs hxs
  obtain ⟨hnodup', hmem', hslots'⟩ := slots_of_addInputs hys
  have hagrees : Input.Consistent xs := (exists_addInputs.mp ⟨tx, hxs⟩).1
  refine ⟨hnodup, (List.perm_ext_iff_of_nodup hnodup hnodup').mpr fun k => ?_, hslots, ?_⟩
  · rw [hmem, hmem', hkeys.mem_iff]
  · intro a ha b hb hkey
    obtain ⟨hunversioned, hsame⟩ := Input.all_gatheredOf_perm h hagrees a.key
    have hslot : some a = (Gathered.all (Input.gatheredOf xs a.key)).map Gathered.input :=
      (Input.firstOf_of_mem hnodup ha).symm.trans (hslots a.key)
    have hslot' : some b = (Gathered.all (Input.gatheredOf ys a.key)).map Gathered.input := by
      rw [hkey]
      exact (Input.firstOf_of_mem hnodup' hb).symm.trans (hslots' b.key)
    refine ⟨Option.some.inj ?_, fun hconcurs => Option.some.inj ?_⟩
    · calc some a.unversioned
          = (some a).map Input.unversioned := rfl
        _ = ((Gathered.all (Input.gatheredOf xs a.key)).map Gathered.unversioned).map Gathered.input := by
          rw [hslot, Gathered.unversioned_map_input]
        _ = (some b).map Input.unversioned := by
          rw [hunversioned, hslot', Gathered.unversioned_map_input]
    · rw [hslot, hslot', hsame hconcurs]

def poolFrom (version : UInt64) : Input := .object (.shared (.ofUInt64 6) version false)

/-- The pool by its id alone, the pool ready for the wire, and a value. -/
def poolMentions : List Input := [.unresolved (.ofId (.ofUInt64 6)), poolFrom 1, .pure [1]]

theorem addInputs_perm_pool :
    poolMentions.Perm poolMentions.reverse ∧
      ∃ tx tx', empty.addInputs poolMentions = .ok tx ∧ empty.addInputs poolMentions.reverse = .ok tx' ∧
        ∀ a ∈ tx.inputs, ∀ b ∈ tx'.inputs, a.key = b.key → a = b := by
  have hperm : poolMentions.Perm poolMentions.reverse := (List.reverse_perm poolMentions).symm
  have hid : (UnresolvedObject.ofId (.ofUInt64 6)).Concurs (.ofId (.ofUInt64 6)) := ⟨nofun, nofun, nofun⟩
  have hconcurs : ∀ x ∈ poolMentions, ∀ y ∈ poolMentions, x.Concurs y := by
    simp [poolMentions, poolFrom, Input.Concurs, hid]
  obtain ⟨-, -, hslots⟩ := addInputs_perm hperm
  refine ⟨hperm, _, _, rfl, rfl, fun a ha b hb hkey => ?_⟩
  obtain ⟨-, -, -, hsame⟩ := hslots _ _ rfl rfl
  exact (hsame a ha b hb hkey).2 fun x hx y hy _ _ => hconcurs x hx y hy

/-- Mentions of a shared object with two initial versions are both accepted, and the first one wins. -/
theorem addInputs_poolFrom :
    [poolFrom 1, poolFrom 2].Perm [poolFrom 2, poolFrom 1] ∧
      empty.addInputs [poolFrom 1, poolFrom 2] = .ok { empty with inputs := [poolFrom 1] } ∧
      empty.addInputs [poolFrom 2, poolFrom 1] = .ok { empty with inputs := [poolFrom 2] } ∧
      (poolFrom 1).key = (poolFrom 2).key ∧ poolFrom 1 ≠ poolFrom 2 := by
  decide +kernel

end Transaction

end ObjectLedger
