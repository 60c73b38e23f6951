import Mathlib.Logic.Function.Basic
import ObjectLedger.Cache
import ObjectLedger.Proofs.Resolve.Objects

/-!
# What a cache stands for

One table holds objects in two scopes and everything else beside them. Seen from outside it is a map
from object ids to references and owners, a map for each other scope, and an optional reference: every
operation answers and changes as these plain maps do, and so does every sequence of operations.

* `PlainCache`: the plain maps, with the operations on them.
* `ObjectCache.plain`: the plain maps that a cache stands for.
* `perform_refines` for one operation, `run_refines` for any number of them.
-/

namespace ObjectLedger

/-- A scope that holds no objects. -/
inductive SideScope where
  | packageName
  | custom (name : String)
  deriving DecidableEq

def SideScope.scope : SideScope → CacheScope
  | packageName => .packageName
  | custom name => .custom name

/-- What may be asked of a cache. -/
inductive CacheOperation where
  | object (objectId : ObjectId)
  | insertObject (info : ObjectInfo)
  | eraseObject (objectId : ObjectId)
  | applyEffects (e : Effects) (owner : Address)
  | reset
  | package (name : String)
  | insertPackage (name : String) (a : Address)
  | fee
  /-- Another coin to pay next, or none. -/
  | withFee (fee : Option ObjectRef)
  | get (side : SideScope) (key : String)
  | insert (side : SideScope) (key : String) (value : CacheEntry)
  /-- Gives the entry that is erased. -/
  | erase (side : SideScope) (key : String)

/-- What a cache answers. -/
inductive CacheAnswer where
  | done
  | object (info : Option ObjectInfo)
  | package (a : Option Address)
  | fee (fee : Option ObjectRef)
  | entry (entry : Option CacheEntry)

/-- Operations one after the other, with their answers. -/
def CacheOperation.runBy {α : Type} (step : α → CacheOperation → CacheAnswer × α) (a : α) :
    List CacheOperation → List CacheAnswer × α
  | [] => ([], a)
  | op :: ops =>
    let (answer, a) := step a op
    let (answers, a) := runBy step a ops
    (answer :: answers, a)

theorem CacheOperation.runBy_refines {α β : Type} {step : α → CacheOperation → CacheAnswer × α}
    {plainStep : β → CacheOperation → CacheAnswer × β} {plain : α → β}
    (h : ∀ a op, plainStep (plain a) op = ((step a op).1, plain (step a op).2))
    (a : α) (ops : List CacheOperation) :
    runBy plainStep (plain a) ops = ((runBy step a ops).1, plain (runBy step a ops).2) := by
  induction ops generalizing a with
  | nil => rfl
  | cons op ops ih =>
    simp only [runBy]
    rw [h a op]
    simp only
    rw [ih (step a op).2]

/-! ### Plain maps -/

/-- Objects by id, the entries of each other scope by key, and the coin that pays next. -/
@[ext] structure PlainCache where
  objects : ObjectId → Option ObjectInfo
  side : SideScope → String → Option CacheEntry
  fee : Option ObjectRef

/-- What a transaction leaves of an object: its new reference and owner, or nothing. -/
def ObjectOut.left (lamportVersion : UInt64) (objectId : ObjectId) : ObjectOut → Option ObjectInfo
  | absent => none
  | object digest owner => some ⟨⟨objectId, lamportVersion, digest⟩, owner⟩
  | package version digest => some ⟨⟨objectId, version, digest⟩, .immutable⟩

namespace PlainCache

def empty : PlainCache := ⟨fun _ => none, fun _ _ => none, none⟩

def setObject (m : PlainCache) (objectId : ObjectId) (info : Option ObjectInfo) : PlainCache :=
  { m with objects := Function.update m.objects objectId info }

def setSide (m : PlainCache) (side : SideScope) (key : String) (entry : Option CacheEntry) :
    PlainCache :=
  { m with side := Function.update m.side side (Function.update (m.side side) key entry) }

/-- The new reference of the coin that paid, when it was written with an owner that still has it. -/
def keptFee (e : Effects) (owner : Address) : Option ObjectRef := do
  let index ← e.gasObjectIndex
  let (objectId, change) ← e.changedObjects[index.toNat]?
  match change.output with
  | .object digest feeOwner =>
    if feeOwner.isOwnedBy owner then some ⟨objectId, e.lamportVersion, digest⟩ else none
  | _ => none

/-- The maps after the effects of a transaction: its changed objects in order, then the coin. -/
def applyEffects (m : PlainCache) (e : Effects) (owner : Address) : PlainCache :=
  { e.changedObjects.foldl (fun m entry =>
      m.setObject entry.1 (entry.2.output.left e.lamportVersion entry.1)) m with
    fee := keptFee e owner }

def perform (m : PlainCache) : CacheOperation → CacheAnswer × PlainCache
  | .object objectId => (.object (m.objects objectId), m)
  | .insertObject info => (.done, m.setObject info.ref.objectId (some info))
  | .eraseObject objectId => (.done, m.setObject objectId none)
  | .applyEffects e owner => (.done, m.applyEffects e owner)
  | .reset => (.done, empty)
  | .package name => (.package ((m.side .packageName name).bind CacheEntry.address?), m)
  | .insertPackage name a => (.done, m.setSide .packageName name (some (.address a)))
  | .fee => (.fee m.fee, m)
  | .withFee fee => (.done, { m with fee })
  | .get side key => (.entry (m.side side key), m)
  | .insert side key value => (.done, m.setSide side key (some value))
  | .erase side key => (.entry (m.side side key), m.setSide side key none)

/-- Operations on plain maps, one after the other. -/
def run (m : PlainCache) (ops : List CacheOperation) : List CacheAnswer × PlainCache :=
  CacheOperation.runBy perform m ops

end PlainCache

namespace ObjectCache

def perform (c : ObjectCache) : CacheOperation → CacheAnswer × ObjectCache
  | .object objectId => (.object (c.object? objectId), c)
  | .insertObject info => (.done, c.insertObject info)
  | .eraseObject objectId => (.done, c.eraseObject objectId)
  | .applyEffects e owner => (.done, c.applyEffects e owner)
  | .reset => (.done, empty)
  | .package name => (.package (c.package? name), c)
  | .insertPackage name a => (.done, c.insertPackage name a)
  | .fee => (.fee c.feeObject, c)
  | .withFee fee => (.done, c.withFee fee)
  | .get side key => (.entry (c.get? side.scope key), c)
  | .insert side key value => (.done, c.insert side.scope key value)
  | .erase side key => (.entry (c.get? side.scope key), c.erase side.scope key)

/-- Operations on a cache, one after the other. -/
def run (c : ObjectCache) (ops : List CacheOperation) : List CacheAnswer × ObjectCache :=
  CacheOperation.runBy perform c ops

/-- The plain maps that a cache stands for. -/
def plain (c : ObjectCache) : PlainCache := ⟨c.object?, fun side => c.get? side.scope, c.feeObject⟩

variable {c : ObjectCache}

/-! ### Scopes and keys -/

theorem scope_inj {side side' : SideScope} (h : side.scope = side'.scope) : side = side' := by
  cases side <;> cases side' <;> simp_all [SideScope.scope]

theorem scope_ne_owned (side : SideScope) : side.scope ≠ .ownedObject := by
  cases side <;> simp [SideScope.scope]

theorem scope_ne_shared (side : SideScope) : side.scope ≠ .sharedOrImmutableObject := by
  cases side <;> simp [SideScope.scope]

theorem scope_ne_owner (side : SideScope) (owner : Owner) : side.scope ≠ owner.scope := by
  cases owner <;> simp [Owner.scope, scope_ne_owned, scope_ne_shared]

theorem get?_insert_self (scope : CacheScope) (key : String) (value : CacheEntry) :
    (c.insert scope key value).get? scope key = some value := by
  simp [get?, insert]

theorem get?_insert_of_ne {scope scope' : CacheScope} {key key' : String} (value : CacheEntry)
    (h : scope' ≠ scope ∨ key' ≠ key) :
    (c.insert scope key value).get? scope' key' = c.get? scope' key' := by
  apply Table.get?_insert_of_ne
  simp only [ne_eq, Prod.mk.injEq]
  tauto

theorem get?_erase_self (scope : CacheScope) (key : String) :
    (c.erase scope key).get? scope key = none := by
  simp [get?, erase]

theorem get?_erase_of_ne {scope scope' : CacheScope} {key key' : String}
    (h : scope' ≠ scope ∨ key' ≠ key) :
    (c.erase scope key).get? scope' key' = c.get? scope' key' := by
  apply Table.get?_erase_of_ne
  simp only [ne_eq, Prod.mk.injEq]
  tauto

/-! ### Each operation on the plain maps -/

theorem plain_empty : empty.plain = PlainCache.empty := rfl

theorem plain_withFee (fee : Option ObjectRef) : (c.withFee fee).plain = { c.plain with fee } := rfl

theorem plain_eraseObject (objectId : ObjectId) :
    (c.eraseObject objectId).plain = c.plain.setObject objectId none := by
  apply PlainCache.ext
  · funext other
    by_cases h : other = objectId
    · subst h
      simp [plain, PlainCache.setObject, object?_eraseObject_self]
    · simp [plain, PlainCache.setObject, Function.update_of_ne h, object?_eraseObject h]
  · funext side key
    simp only [plain, PlainCache.setObject, eraseObject]
    rw [get?_erase_of_ne (.inl (scope_ne_shared side)), get?_erase_of_ne (.inl (scope_ne_owned side))]
  · rfl

theorem plain_insertObject (info : ObjectInfo) :
    (c.insertObject info).plain = c.plain.setObject info.ref.objectId (some info) := by
  apply PlainCache.ext
  · funext other
    by_cases h : other = info.ref.objectId
    · subst h
      simp [plain, PlainCache.setObject, object?_insertObject_self]
    · simp [plain, PlainCache.setObject, Function.update_of_ne h, object?_insertObject h]
  · funext side key
    have herase := congrArg (fun m => m.side side key) (plain_eraseObject (c := c) info.ref.objectId)
    simp only [plain, PlainCache.setObject, insertObject] at herase ⊢
    rw [get?_insert_of_ne _ (.inl (scope_ne_owner side info.owner)), herase]
  · rfl

theorem plain_eq_setSide {c' : ObjectCache} {side : SideScope} {key : String}
    {entry : Option CacheEntry} (hself : c'.get? side.scope key = entry)
    (hother : ∀ scope key', scope ≠ side.scope ∨ key' ≠ key → c'.get? scope key' = c.get? scope key')
    (hfee : c'.feeObject = c.feeObject) : c'.plain = c.plain.setSide side key entry := by
  apply PlainCache.ext
  · funext objectId
    simp only [plain, PlainCache.setSide, object?]
    rw [hother _ _ (.inl (scope_ne_owned side).symm), hother _ _ (.inl (scope_ne_shared side).symm)]
  · funext side' key'
    simp only [plain, PlainCache.setSide]
    by_cases hside : side' = side
    · subst hside
      rw [Function.update_self]
      by_cases hkey : key' = key
      · subst hkey
        rw [hself, Function.update_self]
      · rw [hother _ _ (.inr hkey), Function.update_of_ne hkey]
    · have hscope : side'.scope ≠ side.scope := fun h => hside (scope_inj h)
      rw [hother _ _ (.inl hscope), Function.update_of_ne hside]
  · exact hfee

theorem plain_insert (side : SideScope) (key : String) (value : CacheEntry) :
    (c.insert side.scope key value).plain = c.plain.setSide side key (some value) :=
  plain_eq_setSide (get?_insert_self _ _ _) (fun _ _ h => get?_insert_of_ne value h) rfl

theorem plain_erase (side : SideScope) (key : String) :
    (c.erase side.scope key).plain = c.plain.setSide side key none :=
  plain_eq_setSide (get?_erase_self _ _) (fun _ _ h => get?_erase_of_ne h) rfl

/-! ### Effects -/

theorem isRemoval_operation (change : ObjectChange) :
    change.operation.isRemoval = true ↔ change.output = .absent := by
  obtain ⟨input, output, idOperation⟩ := change
  cases input <;> cases output <;> cases idOperation <;>
    simp [ObjectChange.operation, ObjectOperation.isRemoval]

theorem plain_applyChange (e : Effects) (objectId : ObjectId) (change : ObjectChange) :
    (c.applyChange (e.classify objectId change)).plain =
      c.plain.setObject objectId (change.output.left e.lamportVersion objectId) := by
  have hremoval := isRemoval_operation change
  cases hout : change.output with
  | absent =>
    have hclass : (e.classify objectId change).operation.isRemoval = true ∧
        (e.classify objectId change).objectId = objectId := by
      simp only [Effects.classify, hout, and_true]
      exact hremoval.mpr hout
    rw [applyChange, if_pos hclass.1, hclass.2, plain_eraseObject]
    rfl
  | object digest owner =>
    have hkept : ¬change.operation.isRemoval = true := by simp [hremoval, hout]
    simp only [applyChange, Effects.classify, hout, if_neg hkept, ChangedObject.ref?, Option.map_some]
    exact plain_insertObject _
  | package version digest =>
    have hkept : ¬change.operation.isRemoval = true := by simp [hremoval, hout]
    simp only [applyChange, Effects.classify, hout, if_neg hkept, ChangedObject.ref?, Option.map_some]
    exact plain_insertObject _

theorem nextFee_eq_keptFee (e : Effects) (owner : Address) :
    nextFee e owner = PlainCache.keptFee e owner := by
  unfold nextFee Effects.feeObject PlainCache.keptFee
  cases e.gasObjectIndex with
  | none => rfl
  | some index =>
    simp only [Option.bind_eq_bind, Option.bind_some]
    cases e.changedObjects[index.toNat]? with
    | none => rfl
    | some entry =>
      obtain ⟨objectId, input, output, idOperation⟩ := entry
      cases output <;> rfl

theorem plain_foldl_applyChange (e : Effects) (changes : List (ObjectId × ObjectChange)) :
    ((changes.map fun entry => e.classify entry.1 entry.2).foldl applyChange c).plain =
      changes.foldl (fun m entry =>
        m.setObject entry.1 (entry.2.output.left e.lamportVersion entry.1)) c.plain := by
  induction changes generalizing c with
  | nil => rfl
  | cons entry changes ih =>
    rw [List.map_cons, List.foldl_cons, ih, List.foldl_cons, plain_applyChange]

theorem plain_applyEffects (e : Effects) (owner : Address) :
    (c.applyEffects e owner).plain = c.plain.applyEffects e owner := by
  rw [applyEffects, plain_withFee, Effects.changed, plain_foldl_applyChange, nextFee_eq_keptFee]
  rfl

/-! ### Main statement -/

theorem perform_refines (c : ObjectCache) (op : CacheOperation) :
    c.plain.perform op = ((c.perform op).1, (c.perform op).2.plain) := by
  cases op with
  | object objectId => rfl
  | insertObject info => exact congrArg (Prod.mk _) (plain_insertObject info).symm
  | eraseObject objectId => exact congrArg (Prod.mk _) (plain_eraseObject objectId).symm
  | applyEffects e owner => exact congrArg (Prod.mk _) (plain_applyEffects e owner).symm
  | reset => exact congrArg (Prod.mk _) plain_empty.symm
  | package name => rfl
  | insertPackage name a => exact congrArg (Prod.mk _) (plain_insert .packageName name _).symm
  | fee => rfl
  | withFee fee => exact congrArg (Prod.mk _) (plain_withFee fee).symm
  | get side key => rfl
  | insert side key value => exact congrArg (Prod.mk _) (plain_insert side key value).symm
  | erase side key => exact congrArg (Prod.mk _) (plain_erase side key).symm

/-- **A cache is the plain maps it stands for**, through any sequence of operations: each answer is
theirs, and what the cache stands for in the end is what the operations make of them. -/
theorem run_refines (c : ObjectCache) (ops : List CacheOperation) :
    c.plain.run ops = ((c.run ops).1, (c.run ops).2.plain) :=
  CacheOperation.runBy_refines perform_refines c ops

end ObjectCache

end ObjectLedger
