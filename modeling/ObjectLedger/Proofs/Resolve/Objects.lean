import ObjectLedger.Proofs.InMemory.Lookup
import ObjectLedger.Proofs.Ledger.Address
import ObjectLedger.Proofs.Resolve.Names
import ObjectLedger.Proofs.Transaction.Inputs
import ObjectLedger.Resolve.Objects

/-!
# Completing inputs

Inputs whose objects are looked up go on standing for these objects, as long as each answer is about the
object that was asked for. What is known of an object comes from the cache, or else from the answer to a
question of the stage, asked while a condition on the state of the others holds.
-/

namespace ObjectLedger

/-! ### Answers about the object that was asked for -/

def ObjectCache.Keyed (c : ObjectCache) : Prop :=
  ∀ objectId info, c.object? objectId = some info → info.ref.objectId = objectId

/-- While a condition on its state holds, each answer is about the object that was asked for. -/
def Lookup.Keyed {σ : Type} (lookup : Lookup σ) (holds : σ → Prop) : Prop :=
  ∀ ids peer found peer', holds peer → lookup.objects ids peer = (.ok found, peer') →
    ∀ objectId info, (objectId, some info) ∈ ids.zip found → info.ref.objectId = objectId

/-- While a condition holds, what a build may ask answers about the objects that it is asked for. -/
structure BuildOptions.Keyed {σ : Type} (o : BuildOptions σ) (holds : σ → Prop) : Prop where
  cache : ∀ cache, o.cache = some cache → cache.Keyed
  lookup : ∀ lookup, o.lookup = some lookup → lookup.Keyed holds

theorem Lookup.AnswersFrom.keyed {σ : Type} {lookup : Lookup σ} {holds : σ → Prop} {data : FixedData}
    (h : lookup.AnswersFrom holds data)
    (hdata : ∀ objectId info, data.object objectId = some info → info.ref.objectId = objectId) :
    lookup.Keyed holds := by
  intro ids peer found peer' hpeer hfound objectId info hmem
  obtain ⟨_, heq, -⟩ := h.objects ids peer hpeer
  rw [hfound] at heq
  cases heq
  rw [← List.map_prod_left_eq_zip] at hmem
  obtain ⟨asked, -, hanswer⟩ := List.mem_map.mp hmem
  obtain ⟨rfl, hinfo⟩ := Prod.mk.inj hanswer
  exact hdata _ _ hinfo

theorem InMemory.keyed_options {m : InMemory}
    (h : ∀ objectId info, m.object? objectId = some info → info.ref.objectId = objectId) :
    options.Keyed m.Asked where
  cache := fun _ hcache => by cases hcache
  lookup := by
    rintro _ ⟨⟩
    exact (answersFrom_lookup m).keyed h

namespace ObjectCache

variable {c : ObjectCache} {objectId other : ObjectId} {info : ObjectInfo}

theorem text_inj (h : objectId.text = other.text) : objectId = other := by
  have hparse := Address.parse_text objectId
  rw [h, Address.parse_text] at hparse
  exact (Except.ok.inj hparse).symm

theorem scopes_ne (text : String) :
    (CacheScope.ownedObject, text) ≠ (CacheScope.sharedOrImmutableObject, text) := by
  intro h
  cases (Prod.mk.inj h).1

theorem object?_eraseObject_self : (c.eraseObject objectId).object? objectId = none := by
  unfold object? get? eraseObject erase
  simp only [Table.get?_erase_self, Table.get?_erase_of_ne _ (scopes_ne _)]
  rfl

theorem object?_eraseObject (h : other ≠ objectId) :
    (c.eraseObject objectId).object? other = c.object? other := by
  have hkey : ∀ scope scope' : CacheScope, (scope, other.text) ≠ (scope', objectId.text) := by
    intro scope scope' heq
    exact h (text_inj (Prod.mk.inj heq).2)
  unfold object? get? eraseObject erase
  simp only [Table.get?_erase_of_ne _ (hkey _ _)]

theorem object?_insertObject_self :
    (c.insertObject info).object? info.ref.objectId = some info := by
  unfold insertObject insert object? get? eraseObject erase
  cases info.owner with
  | address _ | object _ =>
    simp only [Owner.scope, Table.get?_insert_self]
    rfl
  | shared _ | immutable | consensus _ _ =>
    simp only [Owner.scope, Table.get?_insert_self, Table.get?_insert_of_ne _ _ (scopes_ne _),
      Table.get?_erase_self, Table.get?_erase_of_ne _ (scopes_ne _)]
    rfl

theorem object?_insertObject (h : other ≠ info.ref.objectId) :
    (c.insertObject info).object? other = c.object? other := by
  have hkey : ∀ scope scope' : CacheScope,
      (scope, other.text) ≠ (scope', info.ref.objectId.text) := by
    intro scope scope' heq
    exact h (text_inj (Prod.mk.inj heq).2)
  rw [← object?_eraseObject (c := c) h]
  unfold object? get? insertObject insert
  simp only [Table.get?_insert_of_ne _ _ (hkey _ _)]

end ObjectCache

/-! ### What a build is told -/

section Objects

variable {σ : Type} {o : BuildOptions σ} {holds : σ → Prop} {asked : List (List ObjectId)}
  {known known' : KnownObjects} {objectId : ObjectId} {info : ObjectInfo} {w w' : World σ}

def BuildOptions.cached? (o : BuildOptions σ) (objectId : ObjectId) : Option ObjectInfo :=
  o.cache.bind (·.object? objectId)

/-- The questions of the stage for objects: batch by batch, for the ids that are not in the cache. -/
def BuildOptions.questions (o : BuildOptions σ) (batch : Nat) (inputs : List Input) :
    List (List ObjectId) :=
  batches batch ((pendingIds inputs).filter fun objectId => (o.cached? objectId).isNone)

/-- What a build is told about an object: by its cache, or else by the answer of its lookup to one of some
questions, asked while a condition on the state of the others holds. -/
inductive BuildOptions.Tells (o : BuildOptions σ) (holds : σ → Prop) (asked : List (List ObjectId))
    (objectId : ObjectId) (info : ObjectInfo) : Prop
  | cached (h : o.cached? objectId = some info) : Tells o holds asked objectId info
  | answered {lookup : Lookup σ} {ids : List ObjectId} {found : List (Option ObjectInfo)}
      {peer peer' : σ} (hcached : o.cached? objectId = none) (hlookup : o.lookup = some lookup)
      (hids : ids ∈ asked) (hpeer : holds peer) (h : lookup.objects ids peer = (.ok found, peer'))
      (hmem : (objectId, some info) ∈ ids.zip found) : Tells o holds asked objectId info

def KnownObjects.Keyed (known : KnownObjects) : Prop :=
  ∀ objectId info, Table.get? known objectId = some info → info.ref.objectId = objectId

/-- All that is known of objects was told. -/
def KnownObjects.Told (o : BuildOptions σ) (holds : σ → Prop) (asked : List (List ObjectId))
    (known : KnownObjects) : Prop :=
  ∀ objectId info, Table.get? known objectId = some info → o.Tells holds asked objectId info

theorem BuildOptions.Keyed.of_tells (ho : o.Keyed holds) (h : o.Tells holds asked objectId info) :
    info.ref.objectId = objectId := by
  cases h with
  | cached h =>
    obtain ⟨cache, hcache, h⟩ := Option.bind_eq_some_iff.mp h
    exact ho.cache cache hcache _ _ h
  | answered _ hlookup _ hpeer h hmem => exact ho.lookup _ hlookup _ _ _ _ hpeer h _ _ hmem

theorem KnownObjects.Told.keyed (h : known.Told o holds asked) (ho : o.Keyed holds) : known.Keyed :=
  fun objectId info hinfo => ho.of_tells (h objectId info hinfo)

theorem KnownObjects.Told.insert (h : known.Told o holds asked)
    (hinfo : o.Tells holds asked objectId info) :
    KnownObjects.Told o holds asked (Table.insert known objectId info) := by
  intro other found hother
  by_cases heq : other = objectId
  · subst heq
    rw [Table.get?_insert_self] at hother
    cases hother
    exact hinfo
  · rw [Table.get?_insert_of_ne _ _ heq] at hother
    exact h other found hother

theorem told_of_noteObjects {answers : List (ObjectId × Option ObjectInfo)}
    (hanswers : ∀ objectId info, (objectId, some info) ∈ answers → o.Tells holds asked objectId info)
    (hknown : known.Told o holds asked) (h : noteObjects answers known = .ok known') :
    known'.Told o holds asked := by
  induction answers generalizing known with
  | nil =>
    cases h
    exact hknown
  | cons answer answers ih =>
    rcases answer with ⟨objectId, - | info⟩
    · cases h
    · have hinfo := hanswers objectId info List.mem_cons_self
      exact ih (fun other found hmem => hanswers other found (List.mem_cons_of_mem _ hmem))
        (hknown.insert hinfo) h

theorem told_of_fetchObjects {lookup : Lookup σ} {parts : List (List ObjectId)}
    (hlookup : o.lookup = some lookup) (ho : o.Keeps holds) (hw : holds w.peer) (hasked : parts ⊆ asked)
    (hparts : ∀ objectId ∈ parts.flatten, o.cached? objectId = none) (hknown : known.Told o holds asked)
    (h : (fetchObjects lookup parts known).exec w = (.ok known', w')) : known'.Told o holds asked := by
  induction parts generalizing known w with
  | nil =>
    obtain ⟨rfl, -⟩ := Build.exec_pure_eq_ok.mp h
    exact hknown
  | cons part parts ih =>
    obtain ⟨found, w₁, hask, h⟩ := Build.exec_bind_eq_ok.mp h
    obtain ⟨known₁, w₂, hnote, h⟩ := Build.exec_bind_eq_ok.mp h
    obtain ⟨hnoted, rfl⟩ := Build.exec_ofExcept_eq_ok.mp hnote
    obtain ⟨peer, hfound, rfl⟩ := Build.exec_ask_eq_ok.mp hask
    have hpeer : holds peer := by
      have hkept := (ho lookup hlookup).objects part w.peer hw
      rwa [hfound] at hkept
    obtain ⟨hfirst, hothers⟩ := List.cons_subset.mp hasked
    rw [List.flatten_cons] at hparts
    have hpart : ∀ objectId info, (objectId, some info) ∈ part.zip found →
        o.Tells holds asked objectId info := by
      intro objectId info hmem
      have hcached := hparts objectId (List.mem_append_left _ (List.of_mem_zip hmem).1)
      exact .answered hcached hlookup hfirst hw hfound hmem
    exact ih hpeer hothers (fun objectId hmem => hparts objectId (List.mem_append_right _ hmem))
      (told_of_noteObjects hpart hknown hnoted) h

theorem cachedObjects_eq (o : BuildOptions σ) (ids : List ObjectId) :
    cachedObjects o ids = Table.tabulate o.cached? ids := by
  unfold cachedObjects Table.tabulate BuildOptions.cached?
  cases o.cache with
  | none => exact List.filterMap_eq_nil_iff.mpr (fun _ _ => rfl) |>.symm
  | some cache => rfl

theorem told_cachedObjects (ids : List ObjectId) : (cachedObjects o ids).Told o holds asked := by
  intro objectId info hinfo
  rw [cachedObjects_eq, Table.get?_tabulate] at hinfo
  split_ifs at hinfo
  exact .cached hinfo

theorem questions_eq (o : BuildOptions σ) (batch : Nat) (inputs : List Input) :
    o.questions batch inputs = batches batch ((pendingIds inputs).filter fun objectId =>
      (Table.get? (cachedObjects o (pendingIds inputs)) objectId).isNone) := by
  unfold BuildOptions.questions
  refine congrArg (batches batch) (List.filter_congr fun objectId hmem => ?_)
  rw [cachedObjects_eq, Table.get?_tabulate, if_pos hmem]

/-- The stage for objects completes each input in its slot, from what it was told. -/
theorem exists_told_of_resolveObjects {batch : Nat} {tx tx' : Transaction}
    (h : (resolveObjects batch o tx).exec w = (.ok tx', w')) :
    ∃ known inputs, (∀ holds, o.Keeps holds → holds w.peer →
        known.Told o holds (o.questions batch tx.inputs)) ∧
      tx' = { tx with inputs } ∧
      List.Forall₂ (fun x y => Input.complete known x = .ok y) tx.inputs inputs := by
  have hfinish : ∀ {known : KnownObjects} {w : World σ}, (do
        let inputs ← Build.ofExcept (tx.inputs.mapM (Input.complete known))
        return { tx with inputs } : Build σ Transaction).exec w = (.ok tx', w') →
      ∃ inputs, tx' = { tx with inputs } ∧
        List.Forall₂ (fun x y => Input.complete known x = .ok y) tx.inputs inputs := by
    intro known w h
    obtain ⟨inputs, w₁, hinputs, h⟩ := Build.exec_bind_eq_ok.mp h
    obtain ⟨rfl, -⟩ := Build.exec_pure_eq_ok.mp h
    exact ⟨inputs, rfl, Except.mapM_eq_ok.mp (Build.exec_ofExcept_eq_ok.mp hinputs).1⟩
  unfold resolveObjects at h
  simp only at h
  -- Either the cache knows every object that is needed, or the lookup is asked for the others.
  split_ifs at h
  · obtain ⟨inputs, htx, hall⟩ := hfinish h
    exact ⟨_, inputs, fun _ _ _ => told_cachedObjects _, htx, hall⟩
  · obtain ⟨lookup, w₁, hrequire, h⟩ := Build.exec_bind_eq_ok.mp h
    obtain ⟨hlookup, rfl⟩ := Build.exec_requireLookup_eq_ok.mp hrequire
    obtain ⟨fetched, w₂, hfetch, h⟩ := Build.exec_bind_eq_ok.mp h
    obtain ⟨-, w₃, -, h⟩ := Build.exec_bind_eq_ok.mp h
    obtain ⟨inputs, htx, hall⟩ := hfinish h
    rw [← questions_eq] at hfetch
    refine ⟨_, inputs, fun holds ho hw => ?_, htx, hall⟩
    refine told_of_fetchObjects hlookup ho hw (List.Subset.refl _) (fun objectId hmem => ?_)
      (told_cachedObjects _) hfetch
    rw [BuildOptions.questions, flatten_batches] at hmem
    simpa using (List.mem_filter.mp hmem).2

/-! ### Inputs that are completed -/

theorem objectId_of_declared {u : UnresolvedObject} {arg : ObjectArg} (h : u.declared? = some arg) :
    arg.objectId = u.objectId := by
  have href : ∀ {make : ObjectRef → ObjectArg}, (∀ ref, (make ref).objectId = ref.objectId) →
      u.ref?.map make = some arg → arg.objectId = u.objectId := by
    intro make hmake h
    obtain ⟨ref, href, rfl⟩ := Option.map_eq_some_iff.mp h
    rw [hmake]
    unfold UnresolvedObject.ref? at href
    split at href
    · cases href
      rfl
    · cases href
  have hmake : ∀ ref, (if u.receiving then ObjectArg.receiving ref else .owned ref).objectId =
      ref.objectId := by
    intro ref
    split_ifs <;> rfl
  unfold UnresolvedObject.declared? at h
  split at h
  · cases h
    rfl
  · exact href hmake h

theorem objectId_of_ofInfo {u : UnresolvedObject} {info : ObjectInfo} {arg : ObjectArg}
    (hinfo : info.ref.objectId = u.objectId) (h : u.ofInfo info = .ok arg) :
    arg.objectId = u.objectId := by
  unfold UnresolvedObject.ofInfo at h
  simp only at h
  split at h
  · cases h
  · cases h
    rfl
  · cases h
    exact hinfo
  · cases h
    exact hinfo

theorem key_of_complete {x y : Input} (hknown : known.Keyed) (h : x.complete known = .ok y) :
    y.key = x.key := by
  cases x with
  | pure bytes =>
    cases h
    rfl
  | object arg =>
    cases h
    rfl
  | unresolved u =>
    simp only [Input.complete] at h
    cases hdeclared : u.declared? with
    | some arg =>
      simp only [hdeclared] at h
      cases h
      exact congrArg Input.Key.object (objectId_of_declared hdeclared)
    | none =>
      simp only [hdeclared] at h
      cases hinfo : Table.get? known u.objectId with
      | none =>
        simp only [hinfo] at h
        cases h
      | some info =>
        simp only [hinfo] at h
        obtain ⟨arg, harg, rfl⟩ := Except.map_eq_ok.mp h
        exact congrArg Input.Key.object (objectId_of_ofInfo (hknown _ _ hinfo) harg)

/-- **What the stage for objects does.** Each input is completed in its slot, for the same object if the
answers are about the objects that were asked for. -/
theorem resolveObjects_eq_ok {batch : Nat} {tx tx' : Transaction}
    (h : (resolveObjects batch o tx).exec w = (.ok tx', w')) :
    ∃ inputs, tx' = { tx with inputs } ∧ ∀ holds, o.Keyed holds → o.Keeps holds → holds w.peer →
      Input.keys inputs = Input.keys tx.inputs := by
  obtain ⟨known, inputs, htold, rfl, hall⟩ := exists_told_of_resolveObjects h
  refine ⟨inputs, rfl, fun holds ho hkeeps hw => ?_⟩
  have hkeys : List.Forall₂ (· = ·) (Input.keys tx.inputs) (Input.keys inputs) := by
    unfold Input.keys
    rw [List.forall₂_map_left_iff, List.forall₂_map_right_iff]
    exact hall.imp fun _ _ hx => (key_of_complete ((htold holds hkeeps hw).keyed ho) hx).symm
  exact (List.forall₂_eq_eq_eq ▸ hkeys).symm

end Objects

end ObjectLedger
