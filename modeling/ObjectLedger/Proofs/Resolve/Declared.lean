import ObjectLedger.Proofs.Resolve.Objects

/-!
# What a declaration asks for

A declaration that fixes an input by itself is taken as it is: nobody is asked about it. Of the others,
an object that is shared becomes a shared input, from the version at which it became so, and any other
object the version of it that is told. An object that is to be received cannot be shared. Either way the
input has what the declaration asks for. A version or a digest that is declared without the other asks for
nothing: what is told takes its place, whether it agrees or not.
-/

namespace ObjectLedger

/-- The version from which on an object is shared, unless somebody owns it or nobody can change it. -/
def Owner.sharedVersion? : Owner → Option UInt64
  | shared version => some version
  | consensus version _ => some version
  | address _ | object _ | immutable => none

namespace UnresolvedObject

variable {u : UnresolvedObject} {info : ObjectInfo} {x : ObjectArg}

/-- One version of an object, in the role that the declaration has for it. -/
def atRef (u : UnresolvedObject) (ref : ObjectRef) : ObjectArg :=
  if u.receiving then .receiving ref else .owned ref

def sharedFrom (u : UnresolvedObject) (version : UInt64) : ObjectArg :=
  .shared u.objectId version (u.isMutable.getD true)

/-! ### What fixes an input -/

/-- An input that the declaration alone fixes. -/
inductive Fixes (u : UnresolvedObject) : ObjectArg → Prop
  | shared {version : UInt64} (hversion : u.initialVersion = some version) (hu : u.receiving = false) :
      Fixes u (u.sharedFrom version)
  | exact {version : UInt64} {digest : Digest} (hu : u.initialVersion = none ∨ u.receiving = true)
      (hversion : u.version = some version) (hdigest : u.digest = some digest) :
      Fixes u (u.atRef ⟨u.objectId, version, digest⟩)

/-- An input that the state of the object calls for. -/
inductive CallsFor (u : UnresolvedObject) (info : ObjectInfo) : ObjectArg → Prop
  | shared {version : UInt64} (hversion : info.owner.sharedVersion? = some version)
      (hu : u.receiving = false) : CallsFor u info (u.sharedFrom version)
  | exact (hversion : info.owner.sharedVersion? = none) : CallsFor u info (u.atRef info.ref)

theorem ref?_eq_some {ref : ObjectRef} :
    u.ref? = some ref ↔
      ∃ version digest, u.version = some version ∧ u.digest = some digest ∧
        ref = ⟨u.objectId, version, digest⟩ := by
  unfold ref?
  cases u.version <;> cases u.digest <;> simp [eq_comm]

theorem declared?_of_ref (h : u.initialVersion = none ∨ u.receiving = true) :
    u.declared? = u.ref?.map u.atRef := by
  unfold declared?
  split
  · next _ _ hversion hu =>
    rw [hversion, hu] at h
    rcases h with h | h <;> cases h
  · rfl

theorem declared?_eq_some : u.declared? = some x ↔ u.Fixes x := by
  constructor
  · intro h
    cases hversion : u.initialVersion with
    | none =>
      rw [declared?_of_ref (.inl hversion)] at h
      obtain ⟨ref, href, rfl⟩ := Option.map_eq_some_iff.mp h
      obtain ⟨version, digest, hv, hd, rfl⟩ := ref?_eq_some.mp href
      exact .exact (.inl hversion) hv hd
    | some version =>
      cases hu : u.receiving with
      | false =>
        unfold declared? at h
        simp only [hversion, hu] at h
        cases h
        exact .shared hversion hu
      | true =>
        rw [declared?_of_ref (.inr hu)] at h
        obtain ⟨ref, href, rfl⟩ := Option.map_eq_some_iff.mp h
        obtain ⟨version, digest, hv, hd, rfl⟩ := ref?_eq_some.mp href
        exact .exact (.inr hu) hv hd
  · intro h
    cases h with
    | shared hversion hu =>
      unfold declared?
      simp only [hversion, hu]
      rfl
    | exact hu hversion hdigest =>
      rw [declared?_of_ref hu]
      exact Option.map_eq_some_iff.mpr ⟨_, ref?_eq_some.mpr ⟨_, _, hversion, hdigest, rfl⟩, rfl⟩

theorem ofInfo_eq (u : UnresolvedObject) (info : ObjectInfo) :
    u.ofInfo info = match info.owner.sharedVersion?, u.receiving with
      | some _, true => .error (.conflictingInput u.objectId "shared" "receiving")
      | some version, false => .ok (u.sharedFrom version)
      | none, _ => .ok (u.atRef info.ref) := by
  unfold ofInfo Owner.sharedVersion? sharedFrom atRef
  cases info.owner <;> cases u.receiving <;> rfl

theorem ofInfo_eq_ok : u.ofInfo info = .ok x ↔ u.CallsFor info x := by
  rw [ofInfo_eq]
  constructor
  · intro h
    split at h
    · cases h
    · next _ _ version hversion hu =>
      cases h
      exact .shared hversion hu
    · next _ _ hversion =>
      cases h
      exact .exact hversion
  · intro h
    cases h with
    | shared hversion hu => rw [hversion, hu]
    | exact hversion => rw [hversion]

/-! ### What an input has of its declaration -/

/-- An input has what its declaration asks for: its role, the version and digest if both are declared,
and what is declared of a shared object. Of a version or a digest alone nothing is said. -/
structure Respected (u : UnresolvedObject) (x : ObjectArg) : Prop where
  received : (Input.object x).isReceived = u.receiving
  exact : ∀ ref version digest, (Input.object x).pin? = some (.exact ref) →
    u.version = some version → u.digest = some digest → ref.version = version ∧ ref.digest = digest
  shared : ∀ objectId version isMutable, x = .shared objectId version isMutable →
    (∀ v, u.initialVersion = some v → version = v) ∧ ∀ m, u.isMutable = some m → isMutable = m

theorem isReceived_atRef (u : UnresolvedObject) (ref : ObjectRef) :
    (Input.object (u.atRef ref)).isReceived = u.receiving := by
  unfold atRef
  cases u.receiving <;> rfl

theorem pin?_atRef (u : UnresolvedObject) (ref : ObjectRef) :
    (Input.object (u.atRef ref)).pin? = some (.exact ref) := by
  unfold atRef
  cases u.receiving <;> rfl

theorem respected_sharedFrom {version : UInt64} (hu : u.receiving = false)
    (hversion : ∀ v, u.initialVersion = some v → version = v) :
    u.Respected (u.sharedFrom version) where
  received := hu.symm
  exact := fun _ _ _ hpin => by cases hpin
  shared := by
    intro objectId version' isMutable hx
    cases hx
    exact ⟨hversion, fun m hm => by rw [hm]; rfl⟩

theorem respected_atRef {ref : ObjectRef}
    (href : ∀ version digest, u.version = some version → u.digest = some digest →
      ref.version = version ∧ ref.digest = digest) : u.Respected (u.atRef ref) where
  received := isReceived_atRef u ref
  exact := by
    intro ref' version digest hpin
    rw [pin?_atRef] at hpin
    cases hpin
    exact href version digest
  shared := by
    intro objectId version isMutable hx
    have hpin := pin?_atRef u ref
    rw [hx] at hpin
    cases hpin

theorem Fixes.respected (h : u.Fixes x) : u.Respected x := by
  cases h with
  | shared hversion hu =>
    refine respected_sharedFrom hu fun v hv => ?_
    rw [hversion] at hv
    exact Option.some.inj hv
  | exact _ hversion hdigest =>
    refine respected_atRef fun v d hv hd => ?_
    rw [hversion] at hv
    rw [hdigest] at hd
    exact ⟨Option.some.inj hv, Option.some.inj hd⟩

theorem CallsFor.respected (hopen : ∀ y, ¬u.Fixes y) (h : u.CallsFor info x) : u.Respected x := by
  cases h with
  | shared _ hu => exact respected_sharedFrom hu fun v hv => absurd (.shared hv hu) (hopen _)
  | exact _ =>
    refine respected_atRef fun v d hv hd => ?_
    have hu : ¬(u.initialVersion = none ∨ u.receiving = true) := fun hu => hopen _ (.exact hu hv hd)
    obtain ⟨hversion, hreceiving⟩ := not_or.mp hu
    obtain ⟨w, hw⟩ := Option.ne_none_iff_exists'.mp hversion
    exact absurd (.shared hw (Bool.eq_false_iff.mpr hreceiving)) (hopen _)

end UnresolvedObject

/-! ### The stage for objects -/

section Objects

variable {σ : Type} {o : BuildOptions σ} {holds : σ → Prop} {u : UnresolvedObject} {w w' : World σ}

theorem complete_unresolved_eq_ok {known : KnownObjects} {y : Input} :
    (Input.unresolved u).complete known = .ok y ↔
      ∃ x, y = .object x ∧ (u.Fixes x ∨ (∀ z, ¬u.Fixes z) ∧
        ∃ info, Table.get? known u.objectId = some info ∧ u.CallsFor info x) := by
  have hfixes : ∀ x, u.Fixes x ↔ u.declared? = some x :=
    fun x => UnresolvedObject.declared?_eq_some.symm
  simp only [Input.complete, hfixes, ← UnresolvedObject.ofInfo_eq_ok]
  cases hdeclared : u.declared? with
  | some x => simp [eq_comm]
  | none =>
    cases Table.get? known u.objectId with
    | none => simp
    | some info => simp [Except.map_eq_ok, and_comm, eq_comm (a := y)]

/-- **A declaration is respected.** Where the stage for objects succeeds, each declaration has given way
to an input for the same object that has what is declared. Either the declaration fixes the input,
whatever the cache and the lookup have to say; or the input is what the cache has, or what the lookup
answered to a question of this run, in a state in which a condition that it keeps still held. That goes
for a version or a digest alone as well: the one that is told need not be the one that is declared. An
object to be received is then not shared. -/
theorem respected_of_resolveObjects {batch slot : Nat} {tx tx' : Transaction} (ho : o.Keeps holds)
    (hw : holds w.peer) (h : (resolveObjects batch o tx).exec w = (.ok tx', w'))
    (hslot : tx.inputs[slot]? = some (.unresolved u)) :
    ∃ x, tx'.inputs[slot]? = some (.object x) ∧ (o.Keyed holds → x.objectId = u.objectId) ∧
      u.Respected x ∧ (u.Fixes x ∨
        (∀ y, ¬u.Fixes y) ∧ ∃ info,
          o.Tells holds (o.questions batch tx.inputs) u.objectId info ∧ u.CallsFor info x) := by
  obtain ⟨known, inputs, htold, rfl, hall⟩ := exists_told_of_resolveObjects h
  replace htold := htold holds ho hw
  obtain ⟨y, hy, hcomplete⟩ := hall.getElem?_eq_some hslot
  obtain ⟨x, rfl, hx⟩ := complete_unresolved_eq_ok.mp hcomplete
  refine ⟨x, hy, fun hkeyed => ?_, ?_⟩
  · exact Input.Key.object.inj (key_of_complete (htold.keyed hkeyed) hcomplete)
  · rcases hx with hfixes | ⟨hopen, info, hinfo, hcalls⟩
    · exact ⟨hfixes.respected, .inl hfixes⟩
    · exact ⟨hcalls.respected hopen, .inr ⟨hopen, info, htold _ _ hinfo, hcalls⟩⟩

/-- A ledger that knows two objects, at one version and with one owner. -/
def holding (version : UInt64) (owner : Owner) : InMemory where
  objects := [(.ofUInt64 6, ⟨⟨.ofUInt64 6, version, ⟨.zero⟩⟩, owner⟩),
    (.ofUInt64 7, ⟨⟨.ofUInt64 7, version, ⟨.zero⟩⟩, owner⟩)]

def readOnly : UnresolvedObject := ⟨.ofUInt64 7, none, none, none, some false, false⟩

/-- Declarations of an exact version, of an object that is only read, and of one to be received. -/
def declaring : Transaction where
  inputs := [.unresolved ⟨.ofUInt64 6, some 1, some ⟨.zero⟩, none, none, false⟩, .unresolved readOnly,
    .unresolved ⟨.ofUInt64 8, some 1, some ⟨.zero⟩, some 2, none, true⟩]

def declaringShared : Transaction where
  inputs := [.object (.owned ⟨.ofUInt64 6, 1, ⟨.zero⟩⟩), .object (.shared (.ofUInt64 7) 3 false),
    .object (.receiving ⟨.ofUInt64 8, 1, ⟨.zero⟩⟩)]

def allShared : InMemory := holding 5 (.shared 3)

theorem respected_of_resolveObjects_declaring :
    InMemory.options.Keeps allShared.Asked ∧ allShared.Asked allShared ∧
      (∃ w', (resolveObjects 50 InMemory.options declaring).exec ⟨allShared, {}, 0⟩ =
        (.ok declaringShared, w')) ∧
      declaring.inputs[1]? = some (.unresolved readOnly) ∧
      ∃ x, declaringShared.inputs[1]? = some (.object x) ∧
        (InMemory.options.Keyed allShared.Asked → x.objectId = readOnly.objectId) ∧
        readOnly.Respected x ∧ (readOnly.Fixes x ∨ (∀ y, ¬readOnly.Fixes y) ∧ ∃ info,
          InMemory.options.Tells allShared.Asked (InMemory.options.questions 50 declaring.inputs)
            readOnly.objectId info ∧ readOnly.CallsFor info x) := by
  have hkeeps := InMemory.keeps_options allShared
  have hpeer := InMemory.Asked.refl allShared
  have hrun : (resolveObjects 50 InMemory.options declaring).exec ⟨allShared, {}, 0⟩ =
      (.ok declaringShared,
        ((resolveObjects 50 InMemory.options declaring).exec ⟨allShared, {}, 0⟩).2) :=
    Prod.ext (by decide +kernel) rfl
  exact ⟨hkeeps, hpeer, ⟨_, hrun⟩, rfl, respected_of_resolveObjects hkeeps hpeer hrun rfl⟩

/-- A declared version need not be the one that is told: nobody is asked about a version with its digest,
and without its digest it does not count. -/
theorem resolveObjects_of_other_version :
    (InMemory.lookup.objects [.ofUInt64 6, .ofUInt64 7] (holding 5 .immutable)).1 =
        .ok [some ⟨⟨.ofUInt64 6, 5, ⟨.zero⟩⟩, .immutable⟩,
          some ⟨⟨.ofUInt64 7, 5, ⟨.zero⟩⟩, .immutable⟩] ∧
      ((resolveObjects 50 InMemory.options
        { inputs := [.unresolved ⟨.ofUInt64 6, some 1, some ⟨.zero⟩, none, none, false⟩,
            .unresolved ⟨.ofUInt64 7, some 1, none, none, none, false⟩] }).exec
          ⟨holding 5 .immutable, {}, 0⟩).1 =
        .ok { inputs := [.object (.owned ⟨.ofUInt64 6, 1, ⟨.zero⟩⟩),
            .object (.owned ⟨.ofUInt64 7, 5, ⟨.zero⟩⟩)] } :=
  ⟨rfl, by decide +kernel⟩

end Objects

end ObjectLedger
