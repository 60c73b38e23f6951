import ObjectLedger.Proofs.Effects.Codec
import ObjectLedger.Proofs.Executor.FeeSlot
import ObjectLedger.Proofs.InMemory.Lookup
import ObjectLedger.Proofs.Resolve.Objects

/-!
# Submissions to the ledger in memory

It runs a transaction when the first coin that pays is at its current version, and then moves that coin on.
Listed coins follow, and so does a cache that takes in the effects. Everything else leaves objects and coins
as they are.
-/

namespace ObjectLedger

namespace InMemory

/-! ### Current references -/

/-- The reference is that of the object as it stands. -/
def Current (m : InMemory) (ref : ObjectRef) : Prop :=
  (m.object? ref.objectId).map (·.ref) = some ref

/-- Each coin is listed as it stands. -/
def CoinsCurrent (m : InMemory) : Prop :=
  ∀ entry ∈ m.coins, ∀ coin ∈ entry.2, m.Current coin.ref

/-- Objects and coins are the same. -/
structure SameHoldings (m m' : InMemory) : Prop where
  objects : m'.objects = m.objects
  coins : m'.coins = m.coins

section Holdings

variable {m m' m'' : InMemory} {ref : ObjectRef} {owner : Owner}

theorem SameHoldings.trans (h : m.SameHoldings m') (h' : m'.SameHoldings m'') : m.SameHoldings m'' :=
  ⟨h'.objects.trans h.objects, h'.coins.trans h.coins⟩

theorem Asked.sameHoldings (h : m.Asked m') : m.SameHoldings m' := by
  obtain ⟨_, _, rfl⟩ := h
  exact ⟨rfl, rfl⟩

theorem SameHoldings.object?_eq (h : m.SameHoldings m') (objectId : ObjectId) :
    m'.object? objectId = m.object? objectId := by
  rw [object?, h.objects, object?]

theorem SameHoldings.current_iff (h : m.SameHoldings m') : m'.Current ref ↔ m.Current ref := by
  rw [Current, h.object?_eq, Current]

theorem SameHoldings.coinsCurrent (h : m.SameHoldings m') (hm : m.CoinsCurrent) : m'.CoinsCurrent := by
  intro entry hentry coin hcoin
  rw [h.coins] at hentry
  exact h.current_iff.mpr (hm entry hentry coin hcoin)

theorem object?_advance_self : (m.advance ref owner).object? ref.objectId = some ⟨ref, owner⟩ :=
  Table.get?_insert_self _ _ _

theorem object?_advance {objectId : ObjectId} (h : objectId ≠ ref.objectId) :
    (m.advance ref owner).object? objectId = m.object? objectId :=
  Table.get?_insert_of_ne _ _ h

theorem current_advance_self : (m.advance ref owner).Current ref := by
  rw [Current, object?_advance_self]
  rfl

theorem Current.advance {other : ObjectRef} (h : m.Current other)
    (hne : other.objectId ≠ ref.objectId) : (m.advance ref owner).Current other := by
  rw [Current, object?_advance hne]
  exact h

theorem CoinsCurrent.advance (h : m.CoinsCurrent) : (m.advance ref owner).CoinsCurrent := by
  intro entry hentry coin hcoin
  obtain ⟨old, hold, rfl⟩ := List.mem_map.mp hentry
  obtain ⟨listed, hlisted, rfl⟩ := List.mem_map.mp hcoin
  unfold followCoin
  split_ifs with hsame
  · exact current_advance_self
  · exact (h old hold listed hlisted).advance hsame

theorem CoinsCurrent.current_of_mem (h : m.CoinsCurrent) {key : Address × String} {coin : CoinInfo}
    (hcoin : coin ∈ (Table.get? m.coins key).getD []) : m.Current coin.ref := by
  cases hget : Table.get? m.coins key with
  | none =>
    rw [hget] at hcoin
    cases hcoin
  | some coins =>
    rw [hget] at hcoin
    exact h _ (Table.mem_of_get? hget) coin hcoin

end Holdings

/-! ### Refusals -/

/-- The refusal of a coin that is not at its current version. -/
def unavailable (fee : ObjectRef) : ClientError :=
  .rejected s!"object {fee.objectId} at version {fee.version} is not available for consumption"

/-- What bytes are refused for. -/
inductive Refusal (m : InMemory) (bytes : List UInt8) : ClientError → Prop
  /-- The refusal was fixed beforehand. -/
  | scripted {fault : ClientError} (h : m.submitErrors.head? = some fault) : Refusal m bytes fault
  | stale {tx : Transaction} {fee : ObjectRef} (hdecode : Transaction.decode bytes = .ok tx)
      (hfee : tx.gas.payment.bind List.head? = some fee) (h : ¬ m.Current fee) :
      Refusal m bytes (unavailable fee)
  /-- Anything else that is wrong; no such refusal begins like that of a coin. -/
  | malformed {text : String} (h : text.toList.head? ≠ some 'o') : Refusal m bytes (.rejected text)

/-- The bytes are of a transaction whose first coin is at its current version. -/
structure Payable (m : InMemory) (bytes : List UInt8) (tx : Transaction) (owner : Address)
    (fee : ObjectRef) : Prop where
  decode : Transaction.decode bytes = .ok tx
  owner : tx.gasOwner = some owner
  head : tx.gas.payment.bind List.head? = some fee
  current : m.Current fee

section Runs

variable {m m' : InMemory} {bytes : List UInt8} {fault : ClientError} {tx : Transaction}
  {owner : Address} {fee : ObjectRef} {digest : Digest} {response : SubmitResponse}

theorem unavailable_ne {text : String} (h : text.toList.head? ≠ some 'o') :
    unavailable fee ≠ .rejected text := by
  intro heq
  rw [← ClientError.rejected.inj heq] at h
  refine h ?_
  simp only [String.toList_append, List.head?_append]
  rfl

/-- Only a coin that is not at its current version is called unavailable, unless the wording was fixed
beforehand. -/
theorem Refusal.of_unavailable (h : m.Refusal bytes (unavailable fee)) :
    m.submitErrors.head? = some (unavailable fee) ∨
      ∃ tx stale, Transaction.decode bytes = .ok tx ∧
        tx.gas.payment.bind List.head? = some stale ∧ ¬ m.Current stale := by
  generalize hfault : unavailable fee = fault at h
  cases h with
  | scripted h => exact .inl h
  | stale hdecode hfee h => exact .inr ⟨_, _, hdecode, hfee, h⟩
  | malformed h => exact absurd hfault (unavailable_ne h)

theorem run_eq_error (h : m.run bytes = (.error fault, m')) :
    m.SameHoldings m' ∧ m.Refusal bytes fault := by
  unfold run at h
  split at h
  next scripted rest herrors =>
    cases h
    exact ⟨⟨rfl, rfl⟩, .scripted (by rw [herrors]; rfl)⟩
  split at h
  next fault hdecode =>
    cases h
    have hhead : (s!"undecodable transaction: {fault.message}").toList.head? = some 'u' := by
      simp only [String.toList_append, List.head?_append]
      rfl
    exact ⟨⟨rfl, rfl⟩, .malformed (by rw [hhead]; decide)⟩
  next tx hdecode =>
    split at h
    next =>
      cases h
      exact ⟨⟨rfl, rfl⟩, .malformed (by decide)⟩
    next =>
      cases h
      exact ⟨⟨rfl, rfl⟩, .malformed (by decide)⟩
    next owner fee howner hfee =>
      split_ifs at h with hcurrent
      · cases h
      · cases h
        exact ⟨⟨rfl, rfl⟩, .stale hdecode hfee hcurrent⟩

theorem run_eq_ok (h : m.run bytes = (.ok response, m')) :
    ∃ tx owner fee, m.Payable bytes tx owner fee ∧
      m.commit tx (Transaction.digest bytes) owner fee = (response, m') := by
  unfold run at h
  split at h
  next => cases h
  split at h
  next => cases h
  next tx hdecode =>
    split at h
    next => cases h
    next => cases h
    next owner fee howner hfee =>
      split_ifs at h with hcurrent
      · cases h
        exact ⟨tx, owner, fee, ⟨hdecode, howner, hfee, hcurrent⟩, rfl⟩
      · cases h

/-! ### Runs -/

/-- The coin that paid, after the transaction. -/
def afterPaying (fee : ObjectRef) (digest : Digest) : ObjectRef :=
  ⟨fee.objectId, fee.version + 1, nextDigest digest⟩

theorem sameHoldings_commit :
    (m.advance (afterPaying fee digest) (.address owner)).SameHoldings (m.commit tx digest owner fee).2 :=
  ⟨rfl, rfl⟩

theorem effects_of_commit {effects : Effects}
    (h : Effects.decode (m.commit tx digest owner fee).1.effects = .ok effects) :
    effects.feeObject = some (afterPaying fee digest, .address owner) ∧
      ∀ c : ObjectCache, effects.changed.foldl ObjectCache.applyChange c =
        c.insertObject ⟨afterPaying fee digest, .address owner⟩ := by
  obtain rfl := Effects.eq_of_decode_encode h
  exact ⟨rfl, fun c => rfl⟩

end Runs

end InMemory

/-! ### Caches that follow -/

namespace ObjectCache

/-- Each object of the cache has its entry where it belongs, and is as it stands. -/
def MirrorsObjects (c : ObjectCache) (m : InMemory) : Prop :=
  ∀ scope key info, c.get? scope key = some (.object info) →
    scope = info.owner.scope ∧ key = info.ref.objectId.text ∧ m.object? info.ref.objectId = some info

/-- The coin that pays next is at its current version, and so is each object of the cache. -/
structure Mirrors (c : ObjectCache) (m : InMemory) : Prop where
  fee : ∀ ref, c.feeObject = some ref → m.Current ref
  objects : c.MirrorsObjects m

variable {c : ObjectCache} {m m' : InMemory} {info found : ObjectInfo} {scope : CacheScope}
  {key : String}

theorem Mirrors.empty (m : InMemory) : Mirrors {} m where
  fee := fun _ h => by cases h
  objects := fun _ _ _ h => by cases h

theorem Mirrors.of_sameHoldings (h : c.Mirrors m) (hsame : m.SameHoldings m') : c.Mirrors m' where
  fee := fun ref href => hsame.current_iff.mpr (h.fee ref href)
  objects := by
    intro scope key info hinfo
    rw [hsame.object?_eq]
    exact h.objects scope key info hinfo

theorem get?_insertObject_eq_object
    (h : (c.insertObject info).get? scope key = some (.object found)) :
    (scope = info.owner.scope ∧ key = info.ref.objectId.text ∧ found = info) ∨
      (c.get? scope key = some (.object found) ∧
        (scope, key) ≠ (.ownedObject, info.ref.objectId.text) ∧
        (scope, key) ≠ (.sharedOrImmutableObject, info.ref.objectId.text)) := by
  unfold insertObject insert get? eraseObject erase at h
  by_cases hnew : (scope, key) = (info.owner.scope, info.ref.objectId.text)
  · rw [hnew, Table.get?_insert_self] at h
    cases h
    cases hnew
    exact .inl ⟨rfl, rfl, rfl⟩
  rw [Table.get?_insert_of_ne _ _ hnew] at h
  by_cases hshared : (scope, key) = (.sharedOrImmutableObject, info.ref.objectId.text)
  · rw [hshared, Table.get?_erase_self] at h
    cases h
  rw [Table.get?_erase_of_ne _ hshared] at h
  by_cases howned : (scope, key) = (.ownedObject, info.ref.objectId.text)
  · rw [howned, Table.get?_erase_self] at h
    cases h
  rw [Table.get?_erase_of_ne _ howned] at h
  exact .inr ⟨h, howned, hshared⟩

theorem scope_eq (owner : Owner) :
    owner.scope = .ownedObject ∨ owner.scope = .sharedOrImmutableObject := by
  cases owner with
  | address _ | object _ => exact .inl rfl
  | shared _ | immutable | consensus _ _ => exact .inr rfl

theorem MirrorsObjects.insertObject (h : c.MirrorsObjects m) :
    (c.insertObject info).MirrorsObjects (m.advance info.ref info.owner) := by
  intro scope key found hfound
  rcases get?_insertObject_eq_object hfound with ⟨rfl, rfl, rfl⟩ | ⟨hold, howned, hshared⟩
  · exact ⟨rfl, rfl, InMemory.object?_advance_self⟩
  · obtain ⟨rfl, rfl, hobject⟩ := h scope key found hold
    refine ⟨rfl, rfl, ?_⟩
    rw [InMemory.object?_advance]
    · exact hobject
    · -- An entry for the object that moves would be in one of the two scopes that were cleared.
      intro heq
      rw [heq] at howned hshared
      rcases scope_eq found.owner with hscope | hscope
      · exact howned (by rw [hscope])
      · exact hshared (by rw [hscope])

/-- **A cache that takes in the effects of a run still follows the ledger.** -/
theorem Mirrors.commit {tx : Transaction} {digest : Digest} {owner a : Address} {fee : ObjectRef}
    {effects : Effects} (h : c.Mirrors m)
    (heffects : Effects.decode (m.commit tx digest owner fee).1.effects = .ok effects) :
    (c.applyEffects effects a).Mirrors (m.commit tx digest owner fee).2 := by
  obtain ⟨hfee, hchanged⟩ := InMemory.effects_of_commit heffects
  refine Mirrors.of_sameHoldings ?_ InMemory.sameHoldings_commit
  constructor
  · intro ref href
    obtain ⟨feeOwner, hpaid, -⟩ := nextFee_eq_some.mp href
    rw [hfee] at hpaid
    cases hpaid
    exact InMemory.current_advance_self
  · rw [applyEffects, hchanged]
    exact h.objects.insertObject

end ObjectCache

end ObjectLedger
