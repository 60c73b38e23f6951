import ObjectLedger.Proofs.Wire.Framing

/-!
# Which groups of seven bits spell a number

Groups of seven bits make up a number whether or not they are the ones that are written for it: a last
group of zeros adds nothing, and enough groups make up a number of more than 64 bits. The groups that are
written for a number are the shortest ones, and the reader takes these and no others.
-/

namespace ObjectLedger.Wire

/-- The number that groups of seven bits make up, least significant first. -/
def ofGroups : Bytes → Nat
  | [] => 0
  | b :: rest => b.toNat % 128 + 128 * ofGroups rest

/-- Groups of seven bits up to the last one: the top bit is set in front of it, and not set in it. -/
structure AreGroups (front : Bytes) (last : UInt8) : Prop where
  more : ∀ b ∈ front, 128 ≤ b.toNat
  stop : last.toNat < 128

/-- No shorter groups make up the same number. -/
def AreShortest (front : Bytes) (last : UInt8) : Prop := front = [] ∨ last ≠ 0

variable {b last last' : UInt8} {front front' rest rest' : Bytes}

theorem areGroups_cons : AreGroups (b :: front) last ↔ 128 ≤ b.toNat ∧ AreGroups front last := by
  constructor
  · rintro ⟨hfront, hlast⟩
    obtain ⟨hb, hfront⟩ := List.forall_mem_cons.mp hfront
    exact ⟨hb, hfront, hlast⟩
  · rintro ⟨hb, hfront, hlast⟩
    exact ⟨List.forall_mem_cons.mpr ⟨hb, hfront⟩, hlast⟩

theorem AreGroups.append_inj (h : AreGroups front last) (h' : AreGroups front' last')
    (heq : front ++ last :: rest = front' ++ last' :: rest') :
    front = front' ∧ last = last' ∧ rest = rest' := by
  induction front generalizing front' with
  | nil =>
    cases front' with
    | nil =>
      obtain ⟨hlast, hrest⟩ := List.cons.inj heq
      exact ⟨rfl, hlast, hrest⟩
    | cons b' front' =>
      have hb' := (areGroups_cons.mp h').1
      have hstop := h.stop
      rw [(List.cons.inj heq).1] at hstop
      omega
  | cons b front ih =>
    obtain ⟨hb, hgroups⟩ := areGroups_cons.mp h
    cases front' with
    | nil =>
      have hstop := h'.stop
      rw [← (List.cons.inj heq).1] at hstop
      omega
    | cons b' front' =>
      obtain ⟨rfl, htail⟩ := List.cons.inj heq
      obtain ⟨rfl, hlast, hrest⟩ := ih hgroups (areGroups_cons.mp h').2 htail
      exact ⟨rfl, hlast, hrest⟩

theorem ofGroups_singleton (h : last.toNat < 128) : ofGroups [last] = last.toNat := by
  rw [ofGroups, ofGroups, Nat.mod_eq_of_lt h]
  rfl

theorem ofGroups_pos (h : AreGroups front last) (hlast : last ≠ 0) : 0 < ofGroups (front ++ [last]) := by
  induction front with
  | nil =>
    rw [List.nil_append, ofGroups_singleton h.stop]
    exact Nat.pos_of_ne_zero fun hzero => hlast (UInt8.toNat_inj.mp hzero)
  | cons b front ih =>
    have hpos := ih (areGroups_cons.mp h).2
    rw [List.cons_append, ofGroups]
    omega

/-! ### What is written -/

theorem exists_groups_of_ulebGroups (n : Nat) : ∀ {bound : Nat}, n ≤ bound →
    ∃ front last, ulebGroups bound n = front ++ [last] ∧ AreGroups front last ∧
      AreShortest front last ∧ ofGroups (front ++ [last]) = n := by
  -- On the number of groups, which is that of the divisions by 128.
  induction n using Nat.strongRecOn with
  | ind n ih =>
    intro bound hbound
    by_cases hlast : n < 128
    · have hbyte : (UInt8.ofNat n).toNat = n := by
        rw [UInt8.toNat_ofNat']
        omega
      have hstop : (UInt8.ofNat n).toNat < 128 := by rwa [hbyte]
      exact ⟨[], UInt8.ofNat n, Reader.ulebGroups_last hlast bound, ⟨by simp, hstop⟩, .inl rfl,
        (ofGroups_singleton hstop).trans hbyte⟩
    · obtain ⟨bound', hbound', hmore⟩ := Reader.ulebGroups_more hlast hbound
      obtain ⟨front, last, heq, hgroups, hshort, hvalue⟩ := ih (n / 128) (by omega) hbound'
      have hbyte : (UInt8.ofNat (n % 128 + 128)).toNat = n % 128 + 128 := by
        rw [UInt8.toNat_ofNat']
        omega
      refine ⟨UInt8.ofNat (n % 128 + 128) :: front, last, by rw [hmore, heq]; rfl,
        areGroups_cons.mpr ⟨by omega, hgroups⟩, .inr ?_, ?_⟩
      · rcases hshort with rfl | hne
        · -- The only group left holds `n / 128`, which is not zero.
          rintro rfl
          rw [List.nil_append, ofGroups_singleton hgroups.stop] at hvalue
          rw [UInt8.toNat_zero] at hvalue
          omega
        · exact hne
      · rw [List.cons_append, ofGroups, hvalue, hbyte]
        omega

theorem ulebGroups_ofGroups (h : AreGroups front last) (hshort : AreShortest front last)
    {bound : Nat} (hbound : ofGroups (front ++ [last]) ≤ bound) :
    ulebGroups bound (ofGroups (front ++ [last])) = front ++ [last] := by
  induction front generalizing bound with
  | nil =>
    rw [List.nil_append, ofGroups_singleton h.stop, Reader.ulebGroups_last h.stop, UInt8.ofNat_toNat]
  | cons b front ih =>
    obtain ⟨hb, hgroups⟩ := areGroups_cons.mp h
    have hne : last ≠ 0 := hshort.resolve_left (List.cons_ne_nil b front)
    have hpos := ofGroups_pos hgroups hne
    have hvalue : ofGroups (b :: front ++ [last]) = b.toNat % 128 + 128 * ofGroups (front ++ [last]) := rfl
    have hb256 := b.toNat_lt
    obtain ⟨bound', hbound', hmore⟩ := Reader.ulebGroups_more (by omega) hbound
    have hdiv : ofGroups (b :: front ++ [last]) / 128 = ofGroups (front ++ [last]) := by omega
    have hmod : ofGroups (b :: front ++ [last]) % 128 + 128 = b.toNat := by omega
    rw [hdiv] at hbound' hmore
    rw [hmore, hmod, UInt8.ofNat_toNat, ih hgroups (.inr hne) hbound']
    rfl

theorem uleb_eq_iff (h : AreGroups front last) {n : Nat} :
    Wire.uleb n = front ++ [last] ↔ AreShortest front last ∧ ofGroups (front ++ [last]) = n := by
  constructor
  · intro heq
    obtain ⟨front', last', hwritten, hgroups, hshort, hvalue⟩ :=
      exists_groups_of_ulebGroups n (Nat.le_refl n)
    obtain ⟨rfl, rfl, -⟩ := h.append_inj hgroups (heq.symm.trans hwritten)
    exact ⟨hshort, hvalue⟩
  · rintro ⟨hshort, rfl⟩
    exact ulebGroups_ofGroups h hshort (Nat.le_refl _)

namespace Reader

/-! ### What is read -/

theorem groups_cons (start fuel shift value offset : Nat) (b : UInt8) (rest : Bytes) :
    groups start (fuel + 1) shift value ⟨offset, b :: rest⟩ =
      (if 64 ≤ shift ∨ (shift = 63 ∧ 1 < b.toNat % 128) then fail (.invalidUleb start)
      else if b.toNat < 128 then
        if b = 0 ∧ 0 < shift then fail (.invalidUleb start)
        else Pure.pure (value + (b.toNat % 128) <<< shift)
      else groups start fuel (shift + 7) (value + (b.toNat % 128) <<< shift) : Reader Nat)
        ⟨offset + 1, rest⟩ :=
  bind_of_eq_ok rfl

theorem groups_of_areGroups (h : AreGroups front last) (start fuel shift value offset : Nat)
    (rest : Bytes) :
    (∃ v c, groups start fuel shift value ⟨offset, front ++ last :: rest⟩ = (.ok v, c)) ∨
      (groups start fuel shift value ⟨offset, front ++ last :: rest⟩).1 = .error (.invalidUleb start) := by
  induction fuel generalizing front shift value offset with
  | zero => exact .inr rfl
  | succ fuel ih =>
    cases front with
    | nil =>
      rw [List.nil_append, groups_cons, if_pos h.stop]
      split_ifs
      · exact .inr rfl
      · exact .inr rfl
      · exact .inl ⟨_, _, rfl⟩
    | cons b front =>
      obtain ⟨hb, hgroups⟩ := areGroups_cons.mp h
      rw [List.cons_append, groups_cons, if_neg (c := b.toNat < 128) (by omega)]
      split_ifs
      · exact .inr rfl
      · exact ih hgroups _ _ _

theorem uleb_of_areGroups (h : AreGroups front last) (offset : Nat) (rest : Bytes) :
    (ofGroups (front ++ [last]) < 2 ^ 64 ∧ AreShortest front last →
      Reader.uleb ⟨offset, front ++ last :: rest⟩ =
        (.ok (ofGroups (front ++ [last])), ⟨offset + front.length + 1, rest⟩)) ∧
    (¬(ofGroups (front ++ [last]) < 2 ^ 64 ∧ AreShortest front last) →
      (Reader.uleb ⟨offset, front ++ last :: rest⟩).1 = .error (.invalidUleb offset)) := by
  constructor
  · rintro ⟨hlt, hshort⟩
    have hread := reads_uleb hlt offset rest
    rw [(uleb_eq_iff h).mpr ⟨hshort, rfl⟩] at hread
    simpa [Nat.add_assoc] using hread
  · intro hnot
    rcases groups_of_areGroups h offset 11 0 0 offset rest with ⟨n, c, hread⟩ | hrefused
    · -- What is read is written as these very groups.
      exfalso
      obtain ⟨hlt, hrest⟩ := uleb_eq_ok (c := ⟨offset, front ++ last :: rest⟩) hread
      obtain ⟨front', last', hwritten, hgroups, hshort, hvalue⟩ :=
        exists_groups_of_ulebGroups n (Nat.le_refl n)
      rw [Wire.uleb, hwritten, List.append_assoc] at hrest
      obtain ⟨rfl, rfl, -⟩ := h.append_inj hgroups hrest
      exact hnot ⟨hvalue ▸ hlt, hshort⟩
    · exact hrefused

theorem inverts_uleb : Reader.uleb.Inverts Wire.uleb fun n => n < 2 ^ 64 where
  reads _ hn := reads_uleb hn
  spells _ n _ h := ⟨Wire.uleb n, ⟨rfl, (uleb_eq_ok h).1⟩, (uleb_eq_ok h).2⟩

/-- **Each number of 64 bits is read from the groups that are written for it, and from no others.**
Whatever follows, just the groups that are written are taken. Of other groups, those that make up a number
of more than 64 bits are refused, and those with a last group of zeros that could be left out. -/
theorem uleb_reads_shortest :
    (∀ (n : Nat) (c c' : Cursor), Reader.uleb c = (.ok n, c') ↔
      n < 2 ^ 64 ∧ c.rest = Wire.uleb n ++ c'.rest ∧
        c'.offset = c.offset + (Wire.uleb n).length) ∧
    ∀ (front : Bytes) (last : UInt8), AreGroups front last → ∀ (offset : Nat) (rest : Bytes),
      (ofGroups (front ++ [last]) < 2 ^ 64 ∧ AreShortest front last →
        Reader.uleb ⟨offset, front ++ last :: rest⟩ =
          (.ok (ofGroups (front ++ [last])), ⟨offset + front.length + 1, rest⟩)) ∧
      (¬(ofGroups (front ++ [last]) < 2 ^ 64 ∧ AreShortest front last) →
        (Reader.uleb ⟨offset, front ++ last :: rest⟩).1 = .error (.invalidUleb offset)) :=
  ⟨fun _ _ _ => inverts_uleb.eq_ok_iff, fun _ _ h => uleb_of_areGroups h⟩

/-- The greatest number takes ten groups. One more bit in the tenth is refused, and so is a zero in two
groups. -/
theorem uleb_reads_shortest_ten :
    (AreGroups (List.replicate 9 255) 1 ∧
      Reader.uleb ⟨0, List.replicate 9 255 ++ 1 :: [7]⟩ = (.ok (2 ^ 64 - 1), ⟨10, [7]⟩)) ∧
    (AreGroups (List.replicate 9 255) 2 ∧
      (Reader.uleb ⟨0, List.replicate 9 255 ++ 2 :: [7]⟩).1 = .error (.invalidUleb 0)) ∧
    AreGroups [128] 0 ∧ (Reader.uleb ⟨0, [128] ++ 0 :: [7]⟩).1 = .error (.invalidUleb 0) := by
  have hmore : ∀ b ∈ List.replicate 9 (255 : UInt8), 128 ≤ b.toNat :=
    List.forall_mem_replicate.mpr (.inr (by decide))
  have hmax : AreGroups (List.replicate 9 255) 1 := ⟨hmore, by decide⟩
  have hbit : AreGroups (List.replicate 9 255) 2 := ⟨hmore, by decide⟩
  have hzero : AreGroups [128] 0 := ⟨List.forall_mem_singleton.mpr (by decide), by decide⟩
  refine ⟨⟨hmax, ?_⟩, ⟨hbit, ?_⟩, hzero, ?_⟩
  · exact (uleb_reads_shortest.2 _ _ hmax 0 [7]).1 ⟨by decide, .inr (by decide)⟩
  · exact (uleb_reads_shortest.2 _ _ hbit 0 [7]).2 fun h => absurd h.1 (by decide)
  · refine (uleb_reads_shortest.2 _ _ hzero 0 [7]).2 fun h => ?_
    rcases h.2 with hnil | hne
    · cases hnil
    · exact hne rfl

end Reader

end ObjectLedger.Wire
