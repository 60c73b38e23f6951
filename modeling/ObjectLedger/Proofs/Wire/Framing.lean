import ObjectLedger.Proofs.Wire.Reading

/-!
# Lengths, tags and what stands behind them

A number in groups of seven bits has one accepted spelling, the shortest, so lengths and tags have
one. A sequence is read back from the bytes of its items when each item takes at least one byte,
since a length greater than what follows is refused.
-/

namespace ObjectLedger.Wire.Reader

variable {α : Type}

/-! ### Groups of seven bits -/

theorem two_pow_seven_mul_succ (i : Nat) : 2 ^ (7 * (i + 1)) = 128 * 2 ^ (7 * i) := by
  rw [Nat.mul_add, Nat.pow_add]
  ring

theorem groups_bounds {n i : Nat} (hlt : n * 2 ^ (7 * i) < 2 ^ 64) (hpos : 0 < i → 0 < n) :
    i ≤ 9 ∧ (i = 9 → n < 2) := by
  refine ⟨?_, ?_⟩
  · by_contra hi
    have h70 : 2 ^ 70 ≤ 2 ^ (7 * i) := Nat.pow_le_pow_right (by norm_num) (by omega)
    have hn := Nat.le_mul_of_pos_left (2 ^ (7 * i)) (hpos (by omega))
    omega
  · rintro rfl
    norm_num at hlt
    omega

theorem groups_cons_lt {payload n i : Nat} (hpayload : payload < 128) (hn : 0 < n)
    (hlt : n * 2 ^ (7 * (i + 1)) < 2 ^ 64) : (payload + 128 * n) * 2 ^ (7 * i) < 2 ^ 64 := by
  obtain ⟨hi, -⟩ := groups_bounds hlt fun _ => hn
  have htop : (2 : Nat) ^ 64 = 2 ^ (64 - 7 * (i + 1)) * 2 ^ (7 * (i + 1)) := by
    rw [← Nat.pow_add]
    congr 1
    omega
  rw [htop] at hlt ⊢
  have hn' := Nat.lt_of_mul_lt_mul_right hlt
  calc (payload + 128 * n) * 2 ^ (7 * i)
      < (128 * (n + 1)) * 2 ^ (7 * i) :=
        Nat.mul_lt_mul_of_pos_right (by omega) (Nat.two_pow_pos _)
    _ = (n + 1) * 2 ^ (7 * (i + 1)) := by rw [two_pow_seven_mul_succ]; ring
    _ ≤ _ := Nat.mul_le_mul_right _ hn'

theorem ulebGroups_last {n : Nat} (h : n < 128) (bound : Nat) :
    ulebGroups bound n = [UInt8.ofNat n] := by
  cases bound with
  | zero => rfl
  | succ bound => rw [ulebGroups, if_pos h]

theorem ulebGroups_more {n bound : Nat} (h : ¬n < 128) (hn : n ≤ bound) :
    ∃ bound', n / 128 ≤ bound' ∧
      ulebGroups bound n = UInt8.ofNat (n % 128 + 128) :: ulebGroups bound' (n / 128) := by
  cases bound with
  | zero => omega
  | succ bound => exact ⟨bound, by omega, by rw [ulebGroups, if_neg h]⟩

theorem reads_group_last {start fuel i value n : Nat} (hn : n < 128) (hi : i ≤ 9)
    (h9 : i = 9 → n < 2) (hpos : 0 < i → 0 < n) :
    (groups start (fuel + 1) (7 * i) value).Reads [UInt8.ofNat n] (value + n * 2 ^ (7 * i)) := by
  have hbyte : (UInt8.ofNat n).toNat = n := by
    rw [UInt8.toNat_ofNat']
    omega
  have hguard : ¬(64 ≤ 7 * i ∨ (7 * i = 63 ∧ 1 < n)) := by omega
  have hzero : ¬(UInt8.ofNat n = 0 ∧ 0 < 7 * i) := by
    rintro ⟨h, hshift⟩
    have hn0 : n = 0 := by rw [← hbyte, h, UInt8.toNat_zero]
    have := hpos (by omega)
    omega
  refine (reads_u8 _).bind_nil ?_
  rw [hbyte, Nat.mod_eq_of_lt hn, if_neg hguard, if_pos hn, if_neg hzero, Nat.shiftLeft_eq]
  exact Reads.pure _

theorem reads_group_more {start fuel i value payload v : Nat} {bs : Bytes} (hpayload : payload < 128)
    (hi : i ≤ 8)
    (h : (groups start fuel (7 * (i + 1)) (value + payload * 2 ^ (7 * i))).Reads bs v) :
    (groups start (fuel + 1) (7 * i) value).Reads (UInt8.ofNat (payload + 128) :: bs) v := by
  have hbyte : (UInt8.ofNat (payload + 128)).toNat = payload + 128 := by
    rw [UInt8.toNat_ofNat']
    omega
  have hmod : (payload + 128) % 128 = payload := by omega
  have hguard : ¬(64 ≤ 7 * i ∨ (7 * i = 63 ∧ 1 < payload)) := by omega
  refine (reads_u8 _).bind ?_
  rw [hbyte, hmod, if_neg hguard, if_neg (by omega), Nat.shiftLeft_eq]
  exact h

theorem reads_groups (start fuel : Nat) :
    ∀ (n i value : Nat) {bound : Nat}, n ≤ bound → i + fuel = 11 → n * 2 ^ (7 * i) < 2 ^ 64 →
      (0 < i → 0 < n) →
      (groups start fuel (7 * i) value).Reads (ulebGroups bound n) (value + n * 2 ^ (7 * i)) := by
  induction fuel with
  | zero =>
    intro n i value bound _ hfuel hlt hpos
    obtain ⟨hi, -⟩ := groups_bounds hlt hpos
    omega
  | succ fuel ih =>
    intro n i value bound hn hfuel hlt hpos
    obtain ⟨hi, h9⟩ := groups_bounds hlt hpos
    by_cases hsmall : n < 128
    · rw [ulebGroups_last hsmall]
      exact reads_group_last hsmall hi h9 hpos
    · obtain ⟨bound', hbound', hgroups⟩ := ulebGroups_more hsmall hn
      have hrest : n / 128 * 2 ^ (7 * (i + 1)) ≤ n * 2 ^ (7 * i) := by
        rw [two_pow_seven_mul_succ, ← Nat.mul_assoc]
        exact Nat.mul_le_mul_right _ (Nat.div_mul_le_self n 128)
      have hrec := ih (n / 128) (i + 1) (value + n % 128 * 2 ^ (7 * i)) hbound' (by omega) (by omega)
        (by omega)
      have hsum : value + n % 128 * 2 ^ (7 * i) + n / 128 * 2 ^ (7 * (i + 1)) =
          value + n * 2 ^ (7 * i) := by
        rw [two_pow_seven_mul_succ, ← Nat.mul_assoc, Nat.add_assoc, ← Nat.add_mul,
          Nat.mul_comm (n / 128), Nat.mod_add_div]
      rw [hsum] at hrec
      rw [hgroups]
      exact reads_group_more (Nat.mod_lt n (by decide)) (by omega) hrec

/-- Groups read behind `i` others are those of one number, whatever bound the writer works with. -/
theorem groups_eq_ok (start fuel : Nat) :
    ∀ {i value v : Nat} {c c' : Cursor}, groups start fuel (7 * i) value c = (.ok v, c') →
      ∃ n, v = value + n * 2 ^ (7 * i) ∧ n * 2 ^ (7 * i) < 2 ^ 64 ∧ (0 < i → 0 < n) ∧
        ∀ bound, n ≤ bound → c.rest = ulebGroups bound n ++ c'.rest := by
  induction fuel with
  | zero => exact fun h => absurd h fail_ne_ok
  | succ fuel ih =>
    intro i value v c c' h
    obtain ⟨b, c₁, hb, h⟩ := bind_eq_ok.mp h
    have hbyte := u8_eq_ok hb
    have hb256 := b.toNat_lt
    dsimp only at h
    split_ifs at h with hguard hlast hzero
    · exact absurd h fail_ne_ok
    · exact absurd h fail_ne_ok
    · obtain ⟨rfl, rfl⟩ := pure_eq_ok.mp h
      have hmod : b.toNat % 128 = b.toNat := Nat.mod_eq_of_lt hlast
      refine ⟨b.toNat, by rw [hmod, Nat.shiftLeft_eq], ?_, fun hi => ?_, fun bound _ => ?_⟩
      · rcases Nat.lt_or_ge i 9 with hi | hi
        · have h56 : 2 ^ (7 * i) ≤ 2 ^ 56 := Nat.pow_le_pow_right (by norm_num) (by omega)
          have := Nat.mul_le_mul (Nat.le_of_lt hlast) h56
          omega
        · obtain rfl : i = 9 := by omega
          norm_num
          omega
      · by_contra h0
        exact hzero ⟨UInt8.toNat_inj.mp (by rw [UInt8.toNat_zero]; omega), by omega⟩
      · rw [ulebGroups_last hlast, UInt8.ofNat_toNat, hbyte]
        rfl
    · obtain ⟨n, rfl, hlt, hpos, hrest⟩ := ih (i := i + 1) h
      have hn := hpos (Nat.succ_pos i)
      refine ⟨b.toNat % 128 + 128 * n, ?_, groups_cons_lt (by omega) hn hlt, fun _ => by omega,
        fun bound hbound => ?_⟩
      · rw [Nat.shiftLeft_eq, two_pow_seven_mul_succ]
        ring
      · obtain ⟨bound', hbound', hgroups⟩ :=
          ulebGroups_more (n := b.toNat % 128 + 128 * n) (by omega) hbound
        have hdiv : (b.toNat % 128 + 128 * n) / 128 = n := by omega
        have hmod : (b.toNat % 128 + 128 * n) % 128 + 128 = b.toNat := by omega
        rw [hgroups, hdiv, hmod, UInt8.ofNat_toNat, hbyte,
          hrest bound' (by omega)]
        rfl

theorem reads_uleb {n : Nat} (hn : n < 2 ^ 64) : Reader.uleb.Reads (Wire.uleb n) n := by
  refine Reads.offset fun start => ?_
  have h := reads_groups start 11 n 0 0 (Nat.le_refl n) rfl (by simpa using hn)
    (fun h => absurd h (Nat.lt_irrefl 0))
  simpa [Wire.uleb] using h

theorem uleb_eq_ok {n : Nat} {c c' : Cursor} (h : Reader.uleb c = (.ok n, c')) :
    n < 2 ^ 64 ∧ c.rest = Wire.uleb n ++ c'.rest := by
  obtain ⟨start, c₁, hstart, h⟩ := bind_eq_ok.mp h
  obtain ⟨-, rfl⟩ := offset_eq_ok.mp hstart
  obtain ⟨m, rfl, hlt, -, hrest⟩ := groups_eq_ok start 11 (i := 0) h
  simp only [Nat.mul_zero, Nat.pow_zero, Nat.mul_one, Nat.zero_add] at hlt ⊢
  exact ⟨hlt, hrest m (Nat.le_refl m)⟩

theorem spells_uleb : Reader.uleb.Spells fun n bs => bs = Wire.uleb n :=
  fun _ _ _ h => ⟨_, rfl, (uleb_eq_ok h).2⟩

theorem ulebGroups_ne_nil (bound n : Nat) : ulebGroups bound n ≠ [] := by
  cases bound with
  | zero => simp [ulebGroups]
  | succ bound =>
    rw [ulebGroups]
    split <;> simp

theorem uleb_ne_nil (n : Nat) : Wire.uleb n ≠ [] := ulebGroups_ne_nil n n

/-- Where groups end is seen from the groups, so those of a number do not start those of another. -/
theorem ulebGroups_append_inj (n : Nat) : ∀ {m bound bound' : Nat} {rest rest' : Bytes}, n ≤ bound →
    m ≤ bound' → ulebGroups bound n ++ rest = ulebGroups bound' m ++ rest' → n = m ∧ rest = rest' := by
  -- On the number of groups, which is that of the divisions by 128.
  induction n using Nat.strongRecOn with
  | ind n ih =>
    intro m bound bound' rest rest' hn hm h
    by_cases hlast : n < 128
    · rw [ulebGroups_last hlast] at h
      by_cases hlast' : m < 128
      · rw [ulebGroups_last hlast'] at h
        obtain ⟨hbyte, hrest⟩ := List.cons.inj h
        have htoNat := congrArg UInt8.toNat hbyte
        simp only [UInt8.toNat_ofNat'] at htoNat
        exact ⟨by omega, hrest⟩
      · obtain ⟨_, -, hmore⟩ := ulebGroups_more hlast' hm
        rw [hmore] at h
        have htoNat := congrArg UInt8.toNat (List.cons.inj h).1
        simp only [UInt8.toNat_ofNat'] at htoNat
        omega
    · obtain ⟨_, hbound, hmore⟩ := ulebGroups_more hlast hn
      rw [hmore] at h
      by_cases hlast' : m < 128
      · rw [ulebGroups_last hlast'] at h
        have htoNat := congrArg UInt8.toNat (List.cons.inj h).1
        simp only [UInt8.toNat_ofNat'] at htoNat
        omega
      · obtain ⟨_, hbound', hmore'⟩ := ulebGroups_more hlast' hm
        rw [hmore'] at h
        obtain ⟨hbyte, htail⟩ := List.cons.inj h
        have htoNat := congrArg UInt8.toNat hbyte
        simp only [UInt8.toNat_ofNat'] at htoNat
        obtain ⟨hdiv, hrest⟩ := ih (n / 128) (by omega) hbound hbound' htail
        exact ⟨by omega, hrest⟩

theorem uleb_append_inj {n m : Nat} {rest rest' : Bytes}
    (h : Wire.uleb n ++ rest = Wire.uleb m ++ rest') : n = m ∧ rest = rest' :=
  ulebGroups_append_inj n (Nat.le_refl n) (Nat.le_refl m) h

/-! ### Tags and lengths -/

theorem reads_uleb32 {n : Nat} (hn : n < 2 ^ 32) : uleb32.Reads (Wire.uleb n) n := by
  refine Reads.offset fun start => ?_
  have h64 : n < 2 ^ 64 := by omega
  have hsize : ¬UInt32.size ≤ n := Nat.not_le.mpr hn
  refine (reads_uleb h64).bind_nil ?_
  rw [if_neg hsize]
  exact Reads.pure n

theorem spells_uleb32_lt : uleb32.Spells fun n bs => bs = Wire.uleb n ∧ n < 2 ^ 32 := by
  refine .offset fun start => spells_uleb.bind fun n => ?_
  split_ifs with hsize
  · exact .fail _
  · exact .pure ⟨List.append_nil _, Nat.not_le.mp hsize⟩

theorem spells_uleb32 : uleb32.Spells fun n bs => bs = Wire.uleb n :=
  spells_uleb32_lt.mono fun _ _ h => h.1

theorem reads_variant {tag : Nat} (h : tag < 2 ^ 32) : variant.Reads (Wire.variant tag) tag :=
  reads_uleb32 h

theorem spells_variant : variant.Spells fun tag bs => bs = Wire.variant tag := spells_uleb32

theorem variant_append_ne_nil (tag : Nat) (bs : Bytes) : Wire.variant tag ++ bs ≠ [] := fun h =>
  uleb_ne_nil tag (List.append_eq_nil_iff.mp h).1

theorem Reads.behindVariant {tag : Nat} {f : Nat → Reader α} {bs : Bytes} {a : α}
    (h : tag < 2 ^ 32) (hf : (f tag).Reads bs a) :
    (variant >>= f).Reads (Wire.variant tag ++ bs) a :=
  (reads_variant h).bind hf

theorem Reads.variantAlone {tag : Nat} {f : Nat → Reader α} {a : α}
    (h : tag < 2 ^ 32) (hf : (f tag).Reads [] a) :
    (variant >>= f).Reads (Wire.variant tag) a :=
  (reads_variant h).bind_nil hf

theorem ReadsIf.behindVariant {tag : Nat} {f : Nat → Reader α} {Q : Prop} {bs : Bytes} {a : α}
    (h : tag < 2 ^ 32) (hf : (f tag).ReadsIf Q bs a) :
    (variant >>= f).ReadsIf Q (Wire.variant tag ++ bs) a :=
  (reads_variant h).always.bind hf

theorem length_apply {n : Nat} (hn : n < 2 ^ 32) (offset : Nat) {rest : Bytes}
    (h : n ≤ rest.length) :
    Reader.length ⟨offset, Wire.length n ++ rest⟩ =
      (.ok n, ⟨offset + (Wire.length n).length, rest⟩) := by
  have hread : uleb32 ⟨offset, Wire.length n ++ rest⟩ =
      (.ok n, ⟨offset + (Wire.length n).length, rest⟩) := reads_uleb32 hn offset rest
  refine (bind_of_eq_ok (offset_eq_ok.mpr ⟨rfl, rfl⟩)).trans ((bind_of_eq_ok hread).trans ?_)
  exact if_neg (by rw [List.length_take, Nat.min_eq_left h]; exact Nat.lt_irrefl n)

/-- A length of more than 32 bits is refused, and not taken for another one. -/
theorem takes_length (n : Nat) : Reader.length.Takes (Wire.length n) n := by
  intro offset rest m c h
  obtain ⟨start, c₁, hstart, h⟩ := bind_eq_ok.mp h
  obtain ⟨-, rfl⟩ := offset_eq_ok.mp hstart
  obtain ⟨k, c₂, hk, h⟩ := bind_eq_ok.mp h
  obtain ⟨_, rfl, hrest⟩ := spells_uleb32 hk
  obtain ⟨rfl, hc⟩ := uleb_append_inj hrest
  split_ifs at h
  · cases h
  · cases h
    exact ⟨rfl, hc.symm⟩

theorem spells_length_lt : Reader.length.Spells fun n bs => bs = Wire.length n ∧ n < 2 ^ 32 := by
  refine .offset fun start => spells_uleb32_lt.bindWith fun n hn c m c' h => ?_
  split_ifs at h
  · cases h
  · cases h
    exact ⟨[], ⟨List.append_nil _, hn⟩, rfl⟩

theorem Reads.behindLength {n : Nat} {f : Nat → Reader α} {bs : Bytes} {a : α} (hn : n < 2 ^ 32)
    (hlen : n ≤ bs.length) (hf : (f n).Reads bs a) :
    (Reader.length >>= f).Reads (Wire.length n ++ bs) a := by
  intro offset rest
  rw [List.append_assoc,
    bind_of_eq_ok (length_apply hn offset (by rw [List.length_append]; omega)), hf,
    List.length_append, Nat.add_assoc]

theorem ReadsIf.behindLength {n : Nat} {f : Nat → Reader α} {Q : Prop} {bs : Bytes} {a : α}
    (hn : Q → n < 2 ^ 32) (hlen : n ≤ bs.length) (hf : (f n).ReadsIf Q bs a) :
    (Reader.length >>= f).ReadsIf Q (Wire.length n ++ bs) a :=
  ⟨fun h => .behindLength (hn h) hlen (hf.reads h), (takes_length n).bind hf.takes⟩

/-! ### Bytes, strings and optional values -/

variable {Q : Prop}

theorem readsIf_bytes {bs : Bytes} (h : Q → bs.length < 2 ^ 32) :
    Reader.bytes.ReadsIf Q (Wire.bytes bs) bs :=
  .behindLength h (Nat.le_refl _) (reads_take bs).always

theorem reads_bytes {bs : Bytes} (h : bs.length < 2 ^ 32) : Reader.bytes.Reads (Wire.bytes bs) bs :=
  (readsIf_bytes fun _ => h).reads trivial

theorem spells_bytes_lt :
    Reader.bytes.Spells fun value bs => bs = Wire.bytes value ∧ value.length < 2 ^ 32 := by
  refine spells_length_lt.bindWith fun n hn c value c' h => ?_
  obtain ⟨rfl, hrest⟩ := take_eq_ok h
  exact ⟨value, ⟨rfl, hn⟩, hrest⟩

theorem spells_bytes : Reader.bytes.Spells fun value bs => bs = Wire.bytes value :=
  spells_bytes_lt.mono fun _ _ h => h.1

theorem readsIf_string {s : String} (h : Q → (utf8Bytes s).length < 2 ^ 32) :
    Reader.string.ReadsIf Q (Wire.string s) s := by
  refine .offset fun start => ?_
  refine (readsIf_bytes h).bind_nil ?_
  rw [utf8String?_utf8Bytes]
  exact (Reads.pure s).always

theorem reads_string {s : String} (h : (utf8Bytes s).length < 2 ^ 32) :
    Reader.string.Reads (Wire.string s) s :=
  (readsIf_string fun _ => h).reads trivial

theorem spells_string_lt :
    Reader.string.Spells fun s bs => bs = Wire.string s ∧ (utf8Bytes s).length < 2 ^ 32 := by
  refine .offset fun start => spells_bytes_lt.bindWith fun bs hbs => ?_
  cases hs : utf8String? bs with
  | none => exact .fail _
  | some s =>
    rw [utf8Bytes_of_utf8String? hs] at hbs ⊢
    exact .pure ⟨List.append_nil _, hbs⟩

theorem spells_string : Reader.string.Spells fun s bs => bs = Wire.string s :=
  spells_string_lt.mono fun _ _ h => h.1

theorem reads_none (read : Reader α) : (option read).Reads [0] none :=
  (reads_bool false).bind_nil (Reads.pure none)

theorem readsIf_option {read : Reader α} {write : α → Bytes} {x : Option α}
    (h : ∀ a ∈ x, read.ReadsIf Q (write a) a) : (option read).ReadsIf Q (Wire.option write x) x := by
  cases x with
  | none => exact (reads_none read).always
  | some a => exact (reads_bool true).always.bind ((h a rfl).map some)

theorem reads_option {read : Reader α} {write : α → Bytes} {x : Option α}
    (h : ∀ a ∈ x, read.Reads (write a) a) : (option read).Reads (Wire.option write x) x :=
  (readsIf_option fun a ha => (h a ha).always).reads trivial

theorem spells_optionWith {read : Reader α} {write : α → Bytes} {Q : α → Prop}
    (hread : read.Spells fun a bs => bs = write a ∧ Q a) :
    (option read).Spells fun x bs => bs = Wire.option write x ∧ ∀ a ∈ x, Q a := by
  refine spells_bool.bind fun b => ?_
  cases b with
  | false => exact .pure ⟨rfl, fun _ h => nomatch h⟩
  | true =>
    refine hread.mapWith fun a ha => ⟨rfl, ?_⟩
    rintro _ ⟨⟩
    exact ha

theorem spells_option {read : Reader α} {write : α → Bytes}
    (hread : read.Spells fun a bs => bs = write a) :
    (option read).Spells fun x bs => bs = Wire.option write x :=
  (spells_optionWith (hread.mono fun _ _ h => ⟨h, trivial⟩)).mono fun _ _ h => h.1

/-! ### Sequences -/

theorem reads_times {read : Reader α} {pieces : List Bytes} {items : List α}
    (h : List.Forall₂ read.Reads pieces items) (acc : List α) :
    (times read pieces.length acc).Reads pieces.flatten (acc.reverse ++ items) := by
  induction h generalizing acc with
  | nil =>
    intro offset rest
    simp [times]
  | @cons bs a pieces items ha _ ih =>
    intro offset rest
    rw [List.flatten_cons, List.append_assoc, List.length_cons, times, ha]
    simp only
    rw [ih]
    simp [Nat.add_assoc]

theorem takes_times {read : Reader α} {pieces : List Bytes} {items : List α}
    (h : List.Forall₂ read.Takes pieces items) (acc : List α) :
    (times read pieces.length acc).Takes pieces.flatten (acc.reverse ++ items) := by
  induction h generalizing acc with
  | nil =>
    intro offset rest xs c hread
    cases hread
    simp
  | @cons bs a pieces items ha _ ih =>
    intro offset rest xs c hread
    rw [List.flatten_cons, List.append_assoc, List.length_cons, times] at hread
    split at hread
    · rename_i x c₁ hx
      obtain ⟨offset₁, rest₁⟩ := c₁
      obtain ⟨rfl, hrest⟩ := ha hx
      replace hrest : rest₁ = pieces.flatten ++ rest := hrest
      subst hrest
      obtain ⟨rfl, hc⟩ := ih (x :: acc) hread
      exact ⟨by simp, hc⟩
    · cases hread

theorem times_eq_ok {read : Reader α} {P : α → Bytes → Prop} (hread : read.Spells P) (count : Nat) :
    ∀ {acc items : List α} {c c' : Cursor}, times read count acc c = (.ok items, c') →
      ∃ xs pieces, items = acc.reverse ++ xs ∧ xs.length = count ∧ List.Forall₂ P xs pieces ∧
        c.rest = pieces.flatten ++ c'.rest := by
  induction count with
  | zero =>
    intro acc items c c' h
    cases h
    exact ⟨[], [], by simp, rfl, .nil, rfl⟩
  | succ count ih =>
    intro acc items c c' h
    rw [times] at h
    split at h
    · rename_i x c₁ hx
      obtain ⟨xs, pieces, rfl, hlen, hP, hrest⟩ := ih h
      obtain ⟨bs, hbs, hc⟩ := hread hx
      exact ⟨x :: xs, bs :: pieces, by simp, by simp [hlen], .cons hbs hP, by simp [hc, hrest]⟩
    · cases h

theorem length_le_length_flatten {R : Bytes → α → Prop} {pieces : List Bytes} {items : List α}
    (h : List.Forall₂ R pieces items) (hne : ∀ bs a, R bs a → bs ≠ []) :
    pieces.length ≤ pieces.flatten.length := by
  induction h with
  | nil => exact Nat.le_refl _
  | @cons bs a pieces items ha _ ih =>
    have hbs := List.length_pos_of_ne_nil (hne bs a ha)
    rw [List.flatten_cons, List.length_cons, List.length_append]
    omega

theorem readsIf_pieces {read : Reader α} {pieces : List Bytes} {items : List α}
    (hlen : Q → pieces.length < 2 ^ 32)
    (h : List.Forall₂ (fun bs a => read.ReadsIf Q bs a ∧ bs ≠ []) pieces items) :
    (seq read).ReadsIf Q (Wire.length pieces.length ++ pieces.flatten) items :=
  .behindLength hlen (length_le_length_flatten h fun _ _ h => h.2)
    ⟨fun hQ => reads_times (h.imp fun _ _ h => h.1.reads hQ) [],
      takes_times (h.imp fun _ _ h => h.1.takes) []⟩

theorem readsIf_seq {read : Reader α} {write : α → Bytes} {xs : List α}
    (hlen : Q → xs.length < 2 ^ 32) (hne : ∀ x, write x ≠ [])
    (h : ∀ x ∈ xs, read.ReadsIf Q (write x) x) :
    (seq read).ReadsIf Q (Wire.seq write xs) xs := by
  have hpieces : List.Forall₂ (fun bs a => read.ReadsIf Q bs a ∧ bs ≠ []) (xs.map write) xs := by
    rw [List.forall₂_map_left_iff, List.forall₂_same]
    exact fun x hx => ⟨h x hx, hne x⟩
  have hread := readsIf_pieces (by simpa using hlen) hpieces
  rwa [List.length_map, ← List.flatMap_def] at hread

theorem spells_seq_lt {read : Reader α} {P : α → Bytes → Prop} (hread : read.Spells P) :
    (seq read).Spells fun xs bs => (∃ pieces, List.Forall₂ P xs pieces ∧
      bs = Wire.length xs.length ++ pieces.flatten) ∧ xs.length < 2 ^ 32 := by
  refine spells_length_lt.bindWith fun n hn c xs c' h => ?_
  obtain ⟨_, pieces, rfl, rfl, hP, hrest⟩ := times_eq_ok hread n h
  exact ⟨_, ⟨⟨pieces, hP, rfl⟩, hn⟩, hrest⟩

theorem spells_seq {read : Reader α} {P : α → Bytes → Prop} (hread : read.Spells P) :
    (seq read).Spells fun xs bs => ∃ pieces, List.Forall₂ P xs pieces ∧
      bs = Wire.length xs.length ++ pieces.flatten :=
  (spells_seq_lt hread).mono fun _ _ h => h.1

theorem spells_seq_write_lt {read : Reader α} {write : α → Bytes}
    (hread : read.Spells fun a bs => bs = write a) :
    (seq read).Spells fun xs bs => bs = Wire.seq write xs ∧ xs.length < 2 ^ 32 := by
  refine (spells_seq_lt hread).mono ?_
  rintro xs _ ⟨⟨pieces, hP, rfl⟩, hlen⟩
  have hpieces : pieces = xs.map write := by
    clear hlen
    induction hP with
    | nil => rfl
    | cons hx _ ih => rw [hx, ih, List.map_cons]
  exact ⟨by rw [hpieces, Wire.seq, List.flatMap_def], hlen⟩

theorem spells_seq_write {read : Reader α} {write : α → Bytes}
    (hread : read.Spells fun a bs => bs = write a) :
    (seq read).Spells fun xs bs => bs = Wire.seq write xs :=
  (spells_seq_write_lt hread).mono fun _ _ h => h.1

end ObjectLedger.Wire.Reader
