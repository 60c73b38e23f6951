import ObjectLedger.Proofs.Resolve.Declared
import ObjectLedger.Proofs.Transaction.Unions

/-!
# Mentions of one object, before and after they are completed

Two mentions of one object share a slot. Where neither fixes another state than the object is in, it makes
no difference whether they are combined first and completed then, or the other way round, with two
exceptions. A mention that leaves the mutability of a shared object open stands for a mutable one on its
own, but gives way to another one that declares it. And two declarations may fix together what neither
fixes by itself: a version from the one and a digest from the other make an exact reference.
-/

namespace ObjectLedger

/-! ### States of objects -/

/-- The state of an object, as far as it decides on the input: shared from a version on, or an exact
version. -/
inductive ObjectState where
  | shared (version : UInt64)
  | exact (ref : ObjectRef)

def ObjectInfo.state (info : ObjectInfo) : ObjectState :=
  match info.owner.sharedVersion? with
  | some version => .shared version
  | none => .exact info.ref

/-- The state of the object for which a mention is ready. -/
def ObjectArg.state : ObjectArg → ObjectState
  | shared _ version _ => .shared version
  | owned ref | receiving ref => .exact ref

/-- A declaration fixes no other state of the object. -/
def UnresolvedObject.Fits (u : UnresolvedObject) (s : ObjectState) : Prop := ∀ y, u.Fixes y → y.state = s

/-- A declaration with what it leaves open from another one. -/
def UnresolvedObject.filledFrom (u v : UnresolvedObject) : UnresolvedObject where
  objectId := u.objectId
  version := u.version.or v.version
  digest := u.digest.or v.digest
  initialVersion := u.initialVersion.or v.initialVersion
  isMutable := combineMutability u.isMutable v.isMutable
  receiving := u.receiving

namespace Input

/-- An input fixes no other state of its object. -/
def Fits : Input → ObjectState → Prop
  | pure _, _ => False
  | object x, s => x.state = s
  | unresolved u, s => u.Fits s

/-- Two declarations that are filled from each other fix no other state either. -/
def FitTogether : Input → Input → ObjectState → Prop
  | unresolved u, unresolved v, s => (u.filledFrom v).Fits s
  | _, _, _ => True

def mutability? : Input → Option Bool
  | object (.shared _ _ isMutable) => some isMutable
  | unresolved u => u.isMutable
  | _ => none

/-- The state of the object has to be told. -/
def IsOpen (x : Input) : Prop := ∃ u, x = unresolved u ∧ ∀ y, ¬u.Fixes y

/-- Two inputs that are completed first, and combined then. -/
def combineCompleted (known : KnownObjects) (a b : Input) : Except BuildError Input := do
  let x ← a.complete known
  let y ← b.complete known
  x.combine y

end Input

namespace ObjectState

def input (s : ObjectState) (objectId : ObjectId) (receiving isMutable : Bool) : Input :=
  match s with
  | shared version => .object (.shared objectId version isMutable)
  | exact ref => .object (if receiving then .receiving ref else .owned ref)

/-- The input for an object in a state, which cannot be shared if it is to be received. -/
def input? (s : ObjectState) (objectId : ObjectId) (receiving isMutable : Bool) :
    Except BuildError Input :=
  match s, receiving with
  | shared _, true => .error (.conflictingInput objectId "shared" "receiving")
  | _, _ => .ok (s.input objectId receiving isMutable)

variable {s : ObjectState} {objectId : ObjectId} {receiving : Bool}

theorem input?_combine (m n : Bool) :
    (do let x ← s.input? objectId receiving m
        let y ← s.input? objectId receiving n
        x.combine y) = s.input? objectId receiving (m || n) := by
  cases s with
  | shared version => cases receiving <;> rfl
  | exact ref =>
    cases receiving <;> simp [input?, input, Input.combine, ObjectArg.combine, Except.map, bind, Except.bind]

theorem state_of_input? {m : Bool} {y : ObjectArg} (h : s.input? objectId receiving m = .ok (.object y)) :
    y.state = s := by
  cases s with
  | shared version =>
    cases receiving with
    | false =>
      cases h
      rfl
    | true => cases h
  | exact ref =>
    cases receiving <;>
    · cases h
      rfl

end ObjectState

namespace Input

variable {s : ObjectState} {objectId : ObjectId} {known : KnownObjects} {a b c x : Input}

/-! ### Completing a mention -/

theorem input?_of_fixes {u : UnresolvedObject} {y : ObjectArg} (h : u.Fixes y) :
    y.state.input? u.objectId u.receiving (u.isMutable.getD true) = .ok (object y) := by
  cases h with
  | shared hversion hu =>
    rw [hu]
    rfl
  | exact hu hversion hdigest =>
    unfold UnresolvedObject.atRef
    cases u.receiving <;> rfl

theorem input?_of_state {u : UnresolvedObject} {info : ObjectInfo} (hopen : ∀ y, ¬u.Fixes y)
    (hinfo : Table.get? known u.objectId = some info) :
    (unresolved u).complete known =
      info.state.input? u.objectId u.receiving (u.isMutable.getD true) := by
  have hdeclared : u.declared? = none :=
    Option.eq_none_iff_forall_ne_some.mpr fun y hy =>
      hopen y (UnresolvedObject.declared?_eq_some.mp hy)
  simp only [complete, hdeclared, hinfo, UnresolvedObject.ofInfo_eq, ObjectInfo.state]
  cases info.owner.sharedVersion? with
  | some version => cases hreceiving : u.receiving <;> rfl
  | none =>
    unfold UnresolvedObject.atRef
    cases u.receiving <;> rfl

theorem complete_of_fits (hkey : x.key = .object objectId) (hx : x.Fits s)
    (hknown : x.IsOpen → ∃ info, Table.get? known objectId = some info ∧ info.state = s) :
    x.complete known = s.input? objectId x.isReceived (x.mutability?.getD true) := by
  cases x with
  | pure bytes => cases hkey
  | object y =>
    cases hkey
    cases hx
    cases y <;> rfl
  | unresolved u =>
    cases hkey
    -- A declaration that fixes the input is not open, so that nothing need be known of the object.
    by_cases hfixes : ∃ y, u.Fixes y
    · obtain ⟨y, hy⟩ := hfixes
      rw [complete_unresolved_eq_ok.mpr ⟨y, rfl, .inl hy⟩, ← hx y hy]
      exact (input?_of_fixes hy).symm
    · have hopen := not_exists.mp hfixes
      obtain ⟨info, hinfo, rfl⟩ := hknown ⟨u, rfl, hopen⟩
      exact input?_of_state hopen hinfo

theorem fits_of_complete {u : UnresolvedObject} {receiving m : Bool}
    (h : (unresolved u).complete known = s.input? objectId receiving m) : u.Fits s := by
  intro y hy
  rw [complete_unresolved_eq_ok.mpr ⟨y, rfl, .inl hy⟩] at h
  exact ObjectState.state_of_input? h.symm

/-! ### Combining mentions -/

theorem combineMutability_some (m : Bool) (n : Option Bool) :
    UnresolvedObject.combineMutability (some m) n = some (m || n == some true) := by
  rcases n with - | - | - <;> cases m <;> rfl

theorem combineMutability_comm (m n : Option Bool) :
    UnresolvedObject.combineMutability m n = UnresolvedObject.combineMutability n m := by
  rcases m with - | - | - <;> rcases n with - | - | - <;> rfl

theorem wants_eq (x : Input) : x.wants = (x.mutability? == some true) := by
  cases x with
  | pure bytes => rfl
  | object arg => cases arg <;> simp [wants, mutability?]
  | unresolved u => rfl

theorem state_grant (y : ObjectArg) (m : Bool) : (y.grant m).state = y.state := by
  cases y <;> rfl

theorem not_isOpen_object {y : ObjectArg} : ¬(object y).IsOpen := by
  rintro ⟨u, hu, -⟩
  cases hu

theorem input?_grant (y : ObjectArg) (x : Input) (objectId : ObjectId) (receiving : Bool) :
    y.state.input? objectId receiving ((object (y.grant x.wants)).mutability?.getD true) =
      y.state.input? objectId receiving
        ((UnresolvedObject.combineMutability (object y).mutability? x.mutability?).getD true) := by
  cases y with
  | shared objectId' version m =>
    rw [wants_eq]
    exact congrArg _ (congrArg (Option.getD · true) (combineMutability_some m _).symm)
  | owned ref => rfl
  | receiving ref => rfl

theorem exists_fixes_filledFrom {u v : UnresolvedObject} {y : ObjectArg} (h : u.Fixes y) :
    ∃ z, (u.filledFrom v).Fixes z := by
  have hor : ∀ {α : Type} {x y : Option α} {a : α}, x = some a → x.or y = some a := by
    rintro α x y a rfl
    rfl
  cases h with
  | shared hversion hu => exact ⟨_, .shared (hor hversion) hu⟩
  | exact hu hversion hdigest =>
    -- The other declaration may add the version from which on the object is shared.
    by_cases hw : (u.filledFrom v).initialVersion = none ∨ (u.filledFrom v).receiving = true
    · exact ⟨_, .exact hw (hor hversion) (hor hdigest)⟩
    · obtain ⟨hinitial, hreceiving⟩ := not_or.mp hw
      obtain ⟨w, hw⟩ := Option.ne_none_iff_exists'.mp hinitial
      exact ⟨_, .shared hw (Bool.eq_false_iff.mpr hreceiving)⟩

theorem isOpen_of_filledFrom {u v : UnresolvedObject} (h : (unresolved (u.filledFrom v)).IsOpen) :
    (unresolved u).IsOpen := by
  obtain ⟨w, hw, hopen⟩ := h
  cases hw
  refine ⟨u, rfl, fun y hy => ?_⟩
  obtain ⟨z, hz⟩ := exists_fixes_filledFrom (v := v) hy
  exact hopen z hz

theorem combineCompleted_of_isResolved (hakey : a.key = .object objectId)
    (hbkey : b.key = .object objectId) (h : a.combine b = .ok c) (ha : a.isResolved = true)
    (hb : b.isResolved = true) : combineCompleted known a b = .ok c ∧ c.complete known = .ok c := by
  cases a with
  | pure bytes => cases hakey
  | unresolved u => cases ha
  | object x =>
    cases b with
    | pure bytes => cases hbkey
    | unresolved v => cases hb
    | object y =>
      obtain ⟨z, -, rfl⟩ := Except.map_eq_ok.mp h
      exact ⟨h, rfl⟩

/-- **Combining before completing.** Two mentions that are ready for the wire stay as they are, and so does
the slot for both. Two mentions that fit one state of their object are completed to inputs that can be
combined to the input for this state, unless it is shared and to be received. The slot for both is completed
to the same, exactly when they fit the state together, and with the mutability that the mentions state, or
mutable if neither does, whereas each of the mentions on its own counts as mutable where it states nothing. -/
theorem complete_combine (hakey : a.key = .object objectId) (hbkey : b.key = .object objectId)
    (h : a.combine b = .ok c) :
    (a.isResolved = true → b.isResolved = true →
      combineCompleted known a b = .ok c ∧ c.complete known = .ok c) ∧
    ∀ s, a.Fits s → b.Fits s →
      (a.IsOpen ∨ b.IsOpen → ∃ info, Table.get? known objectId = some info ∧ info.state = s) →
      combineCompleted known a b =
          s.input? objectId a.isReceived (a.mutability?.getD true || b.mutability?.getD true) ∧
        (c.complete known = s.input? objectId a.isReceived
            ((UnresolvedObject.combineMutability a.mutability? b.mutability?).getD true) ↔
          a.FitTogether b s) := by
  have hkey := hakey.trans hbkey.symm
  have hmeet : a.meet b = .ok c := by
    cases b with
    | pure bytes => cases hbkey
    | object y => exact h
    | unresolved v => exact h
  refine ⟨combineCompleted_of_isResolved hakey hbkey h, fun s ha hb hknown => ?_⟩
  have hreceived := ((meet_eq_ok hkey).mp ⟨c, hmeet⟩).1
  obtain ⟨hckey, hcreceived, -⟩ := of_meet hkey hmeet
  have hx := complete_of_fits hakey ha fun ho => hknown (.inl ho)
  have hy := complete_of_fits hbkey hb fun ho => hknown (.inr ho)
  -- The slot for both, if it fits the state as well.
  have hz (hc : c.Fits s) (hopen : c.IsOpen → a.IsOpen) :=
    complete_of_fits (hckey.trans hakey) hc fun ho => hknown (.inl (hopen ho))
  rw [← hreceived] at hy
  rw [hcreceived] at hz
  refine ⟨by rw [combineCompleted, hx, hy, ObjectState.input?_combine], ?_⟩
  cases a with
  | pure bytes => cases hakey
  | object x =>
    obtain rfl := meet_object_eq hkey hmeet
    cases ha
    rw [hz (state_grant _ _) fun ho => absurd ho not_isOpen_object, input?_grant]
    exact iff_of_true rfl trivial
  | unresolved u =>
    cases b with
    | pure bytes => cases hbkey
    | object y =>
      obtain rfl := meet_unresolved_object_eq hmeet
      cases hb
      rw [hz (state_grant _ _) fun ho => absurd ho not_isOpen_object, input?_grant,
        combineMutability_comm]
      exact iff_of_true rfl trivial
    | unresolved v =>
      obtain rfl : c = unresolved (u.filledFrom v) := meet_unresolved_eq hmeet
      exact ⟨fits_of_complete, fun hc => hz hc isOpen_of_filledFrom⟩

/-- A pool that is shared, and what is known of it. -/
def knownPool : KnownObjects := [(.ofUInt64 6, ⟨⟨.ofUInt64 6, 5, ⟨.zero⟩⟩, .shared 1⟩)]

def anyPool : Input := unresolved (.ofId (.ofUInt64 6))

def poolOfVersion : Input := unresolved { UnresolvedObject.ofId (.ofUInt64 6) with version := some 5 }

def poolOfDigest : Input := unresolved { UnresolvedObject.ofId (.ofUInt64 6) with digest := some ⟨.zero⟩ }

/-- The pool by its id, to be read only. -/
def poolToRead : Input := unresolved { UnresolvedObject.ofId (.ofUInt64 6) with isMutable := some false }

def sharedPool (isMutable : Bool) : Input := object (.shared (.ofUInt64 6) 1 isMutable)

theorem complete_combine_pool :
    poolOfVersion.key = .object (.ofUInt64 6) ∧ poolToRead.key = .object (.ofUInt64 6) ∧
      poolOfVersion.Fits (.shared 1) ∧ poolToRead.Fits (.shared 1) ∧
      (∃ info, Table.get? knownPool (.ofUInt64 6) = some info ∧ info.state = .shared 1) ∧
      poolOfVersion.FitTogether poolToRead (.shared 1) ∧
      ∃ c, poolOfVersion.combine poolToRead = .ok c ∧
        combineCompleted knownPool poolOfVersion poolToRead = .ok (sharedPool true) ∧
        c.complete knownPool = .ok (sharedPool false) := by
  have hopen : ∀ u : UnresolvedObject, u.initialVersion = none → u.digest = none → u.Fits (.shared 1) := by
    rintro u hversion hdigest y (⟨h, -⟩ | ⟨-, -, h⟩)
    · rw [hversion] at h
      cases h
    · rw [hdigest] at h
      cases h
  have hknown : ∃ info, Table.get? knownPool (.ofUInt64 6) = some info ∧ info.state = .shared 1 :=
    ⟨⟨⟨.ofUInt64 6, 5, ⟨.zero⟩⟩, .shared 1⟩, by decide +kernel, rfl⟩
  obtain ⟨c, hcombine⟩ : ∃ c, poolOfVersion.combine poolToRead = .ok c := ⟨_, rfl⟩
  obtain ⟨-, hfits⟩ := complete_combine rfl rfl hcombine
  obtain ⟨happart, htogether⟩ := hfits _ (hopen _ rfl rfl) (hopen _ rfl rfl) fun _ => hknown
  exact ⟨rfl, rfl, hopen _ rfl rfl, hopen _ rfl rfl, hknown, hopen _ rfl rfl, c, hcombine, happart,
    htogether.mpr (hopen _ rfl rfl)⟩

/-- A package that nobody can change, and what is known of it. -/
def knownPackage : KnownObjects := [(.ofUInt64 6, ⟨⟨.ofUInt64 6, 5, ⟨.zero⟩⟩, .immutable⟩)]

def ownedAt (version : UInt64) : Input := object (.owned ⟨.ofUInt64 6, version, ⟨.zero⟩⟩)

def declaredAt (version : UInt64) : Input :=
  unresolved { UnresolvedObject.ofId (.ofUInt64 6) with version := some version, digest := some ⟨.zero⟩ }

def declaredFrom (version : UInt64) : Input :=
  unresolved { UnresolvedObject.ofId (.ofUInt64 6) with initialVersion := some version }

/-- A mention by the id alone stands for a mutable object, and for the version that is told. In the slot of
a mention that only reads the object, or has it at another version, it asks for neither. A version and a
digest stand for a shared object each, but for an exact version in one slot. Of two exact versions that are
declared the first stands in one slot, and of two versions from which on an object is shared the one that
is ready for the wire. -/
theorem complete_combine_anyPool :
    (combineCompleted knownPool anyPool (sharedPool false) = .ok (sharedPool true) ∧
        (anyPool.combine (sharedPool false) >>= complete knownPool) = .ok (sharedPool false)) ∧
      (combineCompleted knownPackage anyPool (ownedAt 2) =
          .error (.conflictingInput (.ofUInt64 6) "version" "different version") ∧
        (anyPool.combine (ownedAt 2) >>= complete knownPackage) = .ok (ownedAt 2)) ∧
      (combineCompleted knownPool poolOfVersion poolOfDigest = .ok (sharedPool true) ∧
        (poolOfVersion.combine poolOfDigest >>= complete knownPool) = .ok (ownedAt 5)) ∧
      (combineCompleted knownPackage (declaredAt 5) (declaredAt 2) =
          .error (.conflictingInput (.ofUInt64 6) "version" "different version") ∧
        ((declaredAt 5).combine (declaredAt 2) >>= complete knownPackage) = .ok (ownedAt 5)) ∧
      combineCompleted knownPool (declaredFrom 2) (sharedPool true) =
        .ok (object (.shared (.ofUInt64 6) 2 true)) ∧
      ((declaredFrom 2).combine (sharedPool true) >>= complete knownPool) = .ok (sharedPool true) := by
  decide +kernel

end Input

end ObjectLedger
