import ObjectLedger.Proofs.Transaction.Inputs

/-!
# Lists of inputs put together

Without repetition in either list, putting inputs into a list is a union: slot by slot the two mentions of
an object meet, and what only the second list stands for comes behind the first. Unions are associative,
in what they give and in when they can be formed: no two of the lists may contradict each other.
-/

namespace ObjectLedger

/-! ### Three mentions of one object -/

theorem ObjectArg.grant_grant (x : ObjectArg) (m n : Bool) :
    (x.grant m).grant n = x.grant (m || n) := by
  cases x <;> simp [grant, Bool.or_assoc]

namespace Input

variable {a b c ab bc : Input}

theorem combineMutability_assoc (l m n : Option Bool) :
    UnresolvedObject.combineMutability (UnresolvedObject.combineMutability l m) n =
      UnresolvedObject.combineMutability l (UnresolvedObject.combineMutability m n) := by
  rcases l with - | - | - <;> rcases m with - | - | - <;> rcases n with - | - | - <;> rfl

theorem wants_combineMutability (m n : Option Bool) :
    (UnresolvedObject.combineMutability m n == some true) = (m == some true || n == some true) := by
  rcases m with - | - | - <;> rcases n with - | - | - <;> rfl

theorem wants_meet (hkey : a.key = b.key) (h : a.meet b = .ok c)
    (hpin : ∀ p, c.pin? = some p → p = .shared) : c.wants = (a.wants || b.wants) := by
  have hgrant : ∀ {x : ObjectArg} {m : Bool}, (∀ p, (object (x.grant m)).pin? = some p → p = .shared) →
      (object (x.grant m)).wants = ((object x).wants || m) := by
    intro x m hpin
    cases x with
    | shared objectId version n => rfl
    | owned ref => cases hpin _ rfl
    | receiving ref => cases hpin _ rfl
  cases alike_of_key_eq hkey with
  | value bytes =>
    cases h
    rfl
  | objects _ | objectDeclared _ =>
    obtain rfl := meet_object_eq hkey h
    exact hgrant hpin
  | declaredObject _ =>
    obtain rfl := meet_unresolved_object_eq h
    rw [hgrant hpin, Bool.or_comm]
  | @declared u v _ =>
    obtain rfl := meet_unresolved_eq h
    exact wants_combineMutability u.isMutable v.isMutable

/-- Three mentions of one object become the same in either order of meeting. -/
theorem meet_assoc {abc abc' : Input} (hab : a.key = b.key) (hbc : b.key = c.key)
    (h₁ : a.meet b = .ok ab) (h₂ : ab.meet c = .ok abc) (h₃ : b.meet c = .ok bc)
    (h₄ : a.meet bc = .ok abc') : abc = abc' := by
  have habKey : ab.key = c.key := (of_meet hab h₁).1.trans (hab.trans hbc)
  have hbcKey : a.key = bc.key := hab.trans (of_meet hbc h₃).1.symm
  have hagrees := ((meet_eq_ok hbcKey).mp ⟨abc', h₄⟩).2
  -- What is ready for the wire stays what it is but for mutability, wherever it stands.
  cases alike_of_key_eq hab with
  | value bytes =>
    cases alike_of_key_eq hbc with
    | value _ =>
      cases h₁
      cases h₂
      cases h₃
      cases h₄
      rfl
  | @objects x _ _ | @objectDeclared x _ _ =>
    obtain rfl := meet_object_eq hab h₁
    obtain rfl := meet_object_eq habKey h₂
    obtain rfl := meet_object_eq hbcKey h₄
    rw [ObjectArg.grant_grant]
    cases x with
    | owned ref => rfl
    | receiving ref => rfl
    | shared objectId version m =>
      rw [wants_meet hbc h₃ fun p hp => (hagrees _ p rfl hp).symm]
  | declaredObject _ =>
    obtain rfl := meet_unresolved_object_eq h₁
    obtain rfl := meet_object_eq habKey h₂
    obtain rfl := meet_object_eq hbc h₃
    obtain rfl := meet_unresolved_object_eq h₄
    rw [ObjectArg.grant_grant, ObjectArg.grant_grant, Bool.or_comm]
  | declared _ =>
    cases alike_of_key_eq hbc with
    | declaredObject _ =>
      have hwants := wants_meet hab h₁ fun p hp => by
        rw [(of_meet hab h₁).2.2] at hp
        cases hp
      obtain rfl := meet_unresolved_eq h₁
      obtain rfl := meet_unresolved_object_eq h₂
      obtain rfl := meet_unresolved_object_eq h₃
      obtain rfl := meet_unresolved_object_eq h₄
      rw [ObjectArg.grant_grant, hwants, Bool.or_comm]
    | declared _ =>
      obtain rfl := meet_unresolved_eq h₁
      obtain rfl := meet_unresolved_eq h₂
      obtain rfl := meet_unresolved_eq h₃
      obtain rfl := meet_unresolved_eq h₄
      simp only [Option.or_assoc, combineMutability_assoc]

/-! ### Slots -/

/-- What a slot holds once the mentions of one object in two lists have met, if both have one. -/
def meetSlots : Option Input → Option Input → Except BuildError (Option Input)
  | some x, some y => (x.meet y).map some
  | some x, none => .ok (some x)
  | none, y => .ok y

/-- The mentions of one object in two lists do not contradict each other, if both have one. -/
def SlotsAgree (x y : Option Input) : Prop := ∀ a ∈ x, ∀ b ∈ y, a.Agrees b

theorem Agrees.symm (h : a.Agrees b) : b.Agrees a :=
  ⟨h.1.symm, fun p q hp hq => (h.2 q p hq hp).symm⟩

theorem SlotsAgree.symm {x y : Option Input} (h : SlotsAgree x y) : SlotsAgree y x :=
  fun b hb a ha => (h a ha b hb).symm

def OfKey (k : Key) (x : Option Input) : Prop := ∀ a ∈ x, a.key = k

variable {k : Key} {x y z xy yz w w' : Option Input}

theorem meetSlots_none (x : Option Input) : meetSlots x none = .ok x := by
  cases x <;> rfl

theorem slotsAgree_meetSlots (hx : OfKey k x) (hy : OfKey k y) (h : meetSlots x y = .ok z)
    (w : Option Input) : SlotsAgree z w ↔ SlotsAgree x w ∧ SlotsAgree y w := by
  cases x with
  | none =>
    cases h
    simp [SlotsAgree]
  | some a =>
    cases y with
    | none =>
      cases h
      simp [SlotsAgree]
    | some b =>
      obtain ⟨c, hc, rfl⟩ := Except.map_eq_ok.mp h
      have hagrees := agrees_of_meet ((hx a rfl).trans (hy b rfl).symm) hc
      simp [SlotsAgree, hagrees, forall_and]

theorem meetSlots_assoc (hx : OfKey k x) (hy : OfKey k y) (hz : OfKey k z)
    (h₁ : meetSlots x y = .ok xy) (h₂ : meetSlots xy z = .ok w) (h₃ : meetSlots y z = .ok yz)
    (h₄ : meetSlots x yz = .ok w') : w = w' := by
  cases x with
  | none =>
    cases h₁
    cases h₄
    exact Except.ok.inj (h₂.symm.trans h₃)
  | some a =>
    cases y with
    | none =>
      cases h₁
      cases h₃
      exact Except.ok.inj (h₂.symm.trans h₄)
    | some b =>
      cases z with
      | none =>
        rw [meetSlots_none] at h₂ h₃
        cases h₂
        cases h₃
        exact Except.ok.inj (h₁.symm.trans h₄)
      | some c =>
        obtain ⟨ab, hab, rfl⟩ := Except.map_eq_ok.mp h₁
        obtain ⟨abc, habc, rfl⟩ := Except.map_eq_ok.mp h₂
        obtain ⟨bc, hbc, rfl⟩ := Except.map_eq_ok.mp h₃
        obtain ⟨abc', habc', rfl⟩ := Except.map_eq_ok.mp h₄
        have hkey := (hx a rfl).trans (hy b rfl).symm
        rw [meet_assoc hkey ((hy b rfl).trans (hz c rfl).symm) hab habc hbc habc']

/-! ### Unions -/

theorem ofKey_firstOf (inputs : List Input) (k : Key) : OfKey k (firstOf inputs k) := by
  intro a ha
  exact of_decide_eq_true (List.find?_some (p := fun x : Input => decide (x.key = k)) ha)

theorem firstOf_cons_self (x : Input) (xs : List Input) : firstOf (x :: xs) x.key = some x :=
  show firstOf ([] ++ x :: xs) x.key = some x from firstOf_of_eq rfl (by simp [keys])

theorem firstOf_cons_of_ne {x : Input} (xs : List Input) {k : Key} (h : x.key ≠ k) :
    firstOf (x :: xs) k = firstOf xs k :=
  show firstOf ([] ++ x :: xs) k = firstOf ([] ++ xs) k from firstOf_of_ne h

/-- A list with another one put into it: new slots come behind, in order. -/
structure Unites (xs ys zs : List Input) : Prop where
  keys_eq : keys zs = keys xs ++ (keys ys).filter (· ∉ keys xs)
  slots : ∀ k, meetSlots (firstOf xs k) (firstOf ys k) = .ok (firstOf zs k)

theorem unites_nil (xs : List Input) : Unites xs [] xs :=
  ⟨by simp [keys], fun k => meetSlots_none _⟩

theorem unites_of_insert {xs zs : List Input} {x : Input} {slot : UInt16}
    (h : insert xs x = .ok (slot, zs)) : Unites xs [x] zs := by
  rcases insert_cases xs x with ⟨front, e, back, rfl, hfront, hkey, hinsert⟩ | ⟨hx, hinsert⟩
  · obtain ⟨z, hz, hslot⟩ := Except.map_eq_ok.mp (hinsert ▸ h)
    cases hslot
    have hzkey := (of_meet hkey hz).1
    constructor
    · rw [keys_replace front back hzkey]
      simp [keys, hkey]
    · intro k
      by_cases hk : x.key = k
      · subst hk
        rw [firstOf_of_eq hkey hfront, firstOf_of_eq (hzkey.trans hkey) hfront, firstOf_cons_self]
        exact congrArg (Except.map some) hz
      · rw [firstOf_of_ne (hkey ▸ hk), firstOf_of_ne (hzkey.trans hkey ▸ hk), firstOf_cons_of_ne [] hk]
        exact meetSlots_none _
  · rw [hinsert] at h
    split_ifs at h
    cases h
    constructor
    · have hfilter : (keys [x]).filter (· ∉ keys xs) = keys [x] :=
        List.filter_cons_of_pos (decide_eq_true hx)
      rw [hfilter, keys, keys, keys, List.map_append]
    · intro k
      by_cases hk : x.key = k
      · subst hk
        rw [firstOf_eq_none hx, firstOf_of_eq rfl hx, firstOf_cons_self]
        rfl
      · rw [firstOf_of_ne hk, List.append_nil, firstOf_cons_of_ne [] hk]
        exact meetSlots_none _

theorem Unites.cons {xs ys zs xs' : List Input} {y : Input} (hy : y.key ∉ keys ys)
    (h : Unites xs [y] xs') (h' : Unites xs' ys zs) : Unites xs (y :: ys) zs := by
  constructor
  · have hfilter : (keys ys).filter (· ∉ keys xs') = (keys ys).filter (· ∉ keys xs) := by
      refine List.filter_congr fun k hk => decide_eq_decide.mpr (not_congr ?_)
      have hne : k ≠ y.key := fun heq => hy (heq ▸ hk)
      rw [h.keys_eq]
      simp [keys, hne]
    rw [h'.keys_eq, hfilter, h.keys_eq, List.append_assoc, ← List.filter_append]
    rfl
  · intro k
    have hslot := h.slots k
    rw [← h'.slots k]
    by_cases hk : y.key = k
    · subst hk
      rw [firstOf_cons_self] at hslot ⊢
      rw [firstOf_eq_none hy, meetSlots_none, hslot]
    · rw [firstOf_cons_of_ne _ hk] at hslot ⊢
      have hnone : firstOf [] k = none := rfl
      rw [hnone, meetSlots_none] at hslot
      rw [Except.ok.inj hslot]

theorem unites_of_insertAll {ys : List Input} :
    ∀ {xs zs : List Input} {acc slots : List UInt16}, (keys ys).Nodup →
      insertAll xs acc ys = .ok (slots, zs) → Unites xs ys zs := by
  induction ys with
  | nil =>
    intro xs zs acc slots hnodup h
    cases h
    exact unites_nil xs
  | cons y ys ih =>
    intro xs zs acc slots hnodup h
    obtain ⟨slot, xs', hinsert, h⟩ := insertAll_cons_eq_ok.mp h
    obtain ⟨hy, hys⟩ := List.nodup_cons.mp hnodup
    exact (unites_of_insert hinsert).cons hy (ih hys h)

theorem eq_of_firstOf {xs : List Input} : ∀ {ys : List Input}, keys xs = keys ys → (keys xs).Nodup →
    (∀ k, firstOf xs k = firstOf ys k) → xs = ys := by
  induction xs with
  | nil =>
    intro ys hkeys _ _
    exact (List.map_eq_nil_iff.mp hkeys.symm).symm
  | cons x xs ih =>
    intro ys hkeys hnodup hslots
    cases ys with
    | nil => cases hkeys
    | cons y ys =>
      obtain ⟨hkey, htail⟩ : x.key = y.key ∧ keys xs = keys ys := List.cons.inj hkeys
      obtain ⟨hx, hxs⟩ := List.nodup_cons.mp hnodup
      have hhead := hslots x.key
      rw [firstOf_cons_self, hkey, firstOf_cons_self] at hhead
      obtain rfl := Option.some.inj hhead
      refine congrArg (x :: ·) (ih htail hxs fun k => ?_)
      by_cases hk : x.key = k
      · subst hk
        rw [firstOf_eq_none hx, firstOf_eq_none (show x.key ∉ keys ys from htail ▸ hx)]
      · have hrest := hslots k
        rwa [firstOf_cons_of_ne _ hk, firstOf_cons_of_ne _ hk] at hrest

variable {as bs cs abs bcs abcs abcs' : List Input}

theorem Unites.mem_keys (h : Unites as bs abs) {k : Key} :
    k ∈ keys abs ↔ k ∈ keys as ∨ k ∈ keys bs := by
  rw [h.keys_eq, List.mem_append, List.mem_filter, decide_eq_true_iff]
  tauto

theorem Unites.toFinset (h : Unites as bs abs) :
    (keys abs).toFinset = (keys as).toFinset ∪ (keys bs).toFinset := by
  ext k
  simp [h.mem_keys]

theorem Unites.assoc (hab : Unites as bs abs) (habc : Unites abs cs abcs) (hbc : Unites bs cs bcs)
    (habc' : Unites as bcs abcs') (hnodup : (keys abcs).Nodup) : abcs = abcs' := by
  refine eq_of_firstOf ?_ hnodup fun k => ?_
  · have hfilter : (keys cs).filter (· ∉ keys abs) =
        ((keys cs).filter (· ∉ keys bs)).filter (· ∉ keys as) := by
      rw [List.filter_filter]
      refine List.filter_congr fun k _ => ?_
      simp [hab.mem_keys]
    rw [habc.keys_eq, habc'.keys_eq, hbc.keys_eq, List.filter_append, hfilter, hab.keys_eq,
      List.append_assoc]
  · exact meetSlots_assoc (ofKey_firstOf as k) (ofKey_firstOf bs k) (ofKey_firstOf cs k) (hab.slots k)
      (habc.slots k) (hbc.slots k) (habc'.slots k)

/-! ### When lists can be put together -/

/-- No mention in one list contradicts one in the other. -/
def Together (xs ys : List Input) : Prop := ∀ k, SlotsAgree (firstOf xs k) (firstOf ys k)

theorem Together.symm (h : Together as bs) : Together bs as := fun k => (h k).symm

theorem Unites.together_iff (h : Unites as bs abs) :
    Together abs cs ↔ Together as cs ∧ Together bs cs := by
  have hslot : ∀ k, SlotsAgree (firstOf abs k) (firstOf cs k) ↔
      SlotsAgree (firstOf as k) (firstOf cs k) ∧ SlotsAgree (firstOf bs k) (firstOf cs k) :=
    fun k => slotsAgree_meetSlots (ofKey_firstOf as k) (ofKey_firstOf bs k) (h.slots k) _
  simp only [Together, hslot, forall_and]

theorem compatible_iff_together (hbs : (keys bs).Nodup) : Compatible as bs ↔ Together as bs := by
  have hpairs : bs.Pairwise fun x y => x.key = y.key → x.Agrees y := by
    refine (List.pairwise_map.mp hbs).imp ?_
    intro x y hne heq
    exact absurd heq hne
  constructor
  · rintro ⟨hslots, -⟩ k a ha b hb
    have hkey := ofKey_firstOf bs k b hb
    exact hslots b (List.mem_of_find?_eq_some hb) a (hkey ▸ ha)
  · intro h
    exact ⟨fun y hy a ha => h y.key a ha y (firstOf_of_mem hbs hy), hpairs⟩

theorem length_add_card_newKeys (has : (keys as).Nodup) :
    as.length + (newKeys as bs).card = ((keys as).toFinset ∪ (keys bs).toFinset).card := by
  have hlength : as.length = (keys as).toFinset.card := by
    rw [List.toFinset_card_of_nodup has, keys, List.length_map]
  rw [hlength, newKeys, ← Finset.card_union_of_disjoint Finset.disjoint_sdiff,
    Finset.union_sdiff_self_eq_union]

end Input

end ObjectLedger
