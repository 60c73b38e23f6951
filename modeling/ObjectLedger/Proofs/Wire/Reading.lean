import Mathlib.Data.List.Forall2
import Mathlib.Tactic.Ring
import ObjectLedger.Wire.Cursor
import ObjectLedger.Wire.Write

/-!
# Reading and writing

Two relations tie a reader to what a writer appends.

* `Reads r bs a`: wherever `bs` stands, `r` reads exactly these bytes and gives `a`.
* `Spells r P`: whatever `r` gives, the bytes it took are one that `P` allows for that value. With
  `P a bs := bs = write a` each value has one accepted spelling.

Some values are too large to be read, and then there is still something to say: `ReadsIf r Q bs a` is
`Reads r bs a` under the condition `Q`, and without it that `r`, if it reads at all where `bs` stands,
reads these bytes as `a`.

All are closed under `>>=`, so a composite reader is handled field by field. Lengths are the one
place where a reader looks at bytes it does not take: a length is refused when fewer bytes follow, so
`bytes` and `seq` are treated as a whole and not through their length.
-/

namespace ObjectLedger

theorem utf8String?_utf8Bytes (s : String) : utf8String? (utf8Bytes s) = some s := by
  have h : (⟨(utf8Bytes s).toArray⟩ : ByteArray) = s.toByteArray := by
    simp [utf8Bytes]
  rw [utf8String?, h, String.fromUTF8?, dif_pos s.isValidUTF8]
  rfl

theorem utf8Bytes_of_utf8String? {bytes : List UInt8} {s : String} (h : utf8String? bytes = some s) :
    bytes = utf8Bytes s := by
  rw [utf8String?, String.fromUTF8?] at h
  split at h
  · rw [Option.some.injEq] at h
    subst h
    simp [utf8Bytes, String.fromUTF8]
  · contradiction

namespace Wire.Reader

variable {α β γ : Type}

/-! ### The relations -/

/-- In front of any other bytes, the reader takes exactly `bs` and gives `a`. -/
def Reads (r : Reader α) (bs : Bytes) (a : α) : Prop :=
  ∀ offset rest, r ⟨offset, bs ++ rest⟩ = (.ok a, ⟨offset + bs.length, rest⟩)

/-- In front of any other bytes, the reader takes exactly `bs` and gives `a`, or it fails. -/
def Takes (r : Reader α) (bs : Bytes) (a : α) : Prop :=
  ∀ ⦃offset rest b c⦄, r ⟨offset, bs ++ rest⟩ = (.ok b, c) → b = a ∧ c.rest = rest

/-- The reader reads `bs` as `a` under a condition, and as nothing else in any case. -/
structure ReadsIf (r : Reader α) (Q : Prop) (bs : Bytes) (a : α) : Prop where
  reads : Q → r.Reads bs a
  takes : r.Takes bs a

/-- What the reader gives, it took from bytes that `P` allows for it. -/
def Spells (r : Reader α) (P : α → Bytes → Prop) : Prop :=
  ∀ ⦃c a c'⦄, r c = (.ok a, c') → ∃ bs, P a bs ∧ c.rest = bs ++ c'.rest

theorem bind_eq_ok {r : Reader α} {f : α → Reader β} {c c' : Cursor} {b : β} :
    (r >>= f) c = (.ok b, c') ↔ ∃ a c₁, r c = (.ok a, c₁) ∧ f a c₁ = (.ok b, c') := by
  show Reader.bind r f c = _ ↔ _
  rw [Reader.bind]
  rcases r c with ⟨_ | a, c₁⟩
  · simp
  · constructor
    · exact fun h => ⟨a, c₁, rfl, h⟩
    · rintro ⟨_, _, h, hf⟩
      cases h
      exact hf

theorem bind_of_eq_ok {r : Reader α} {f : α → Reader β} {c c₁ : Cursor} {a : α}
    (h : r c = (.ok a, c₁)) : (r >>= f) c = f a c₁ := by
  show Reader.bind r f c = _
  rw [Reader.bind, h]

@[simp] theorem pure_eq_ok {a b : α} {c c' : Cursor} :
    (pure a : Reader α) c = (.ok b, c') ↔ a = b ∧ c = c' := by
  show (Except.ok a, c) = _ ↔ _
  simp

@[simp] theorem fail_ne_ok {e : DecodeError} {a : α} {c c' : Cursor} :
    fail e c ≠ (.ok a, c') := by
  simp [fail]

@[simp] theorem offset_eq_ok {n : Nat} {c c' : Cursor} :
    offset c = (.ok n, c') ↔ c.offset = n ∧ c = c' := by
  simp [offset]

theorem Reads.pure (a : α) : (Pure.pure a : Reader α).Reads [] a := fun _ _ => rfl

theorem Reads.bind {r : Reader α} {f : α → Reader β} {bs bs' : Bytes} {a : α} {b : β}
    (hr : r.Reads bs a) (hf : (f a).Reads bs' b) : (r >>= f).Reads (bs ++ bs') b := by
  intro offset rest
  rw [List.append_assoc, bind_of_eq_ok (hr offset (bs' ++ rest)), hf, List.length_append,
    Nat.add_assoc]

theorem Reads.bind_nil {r : Reader α} {f : α → Reader β} {bs : Bytes} {a : α} {b : β}
    (hr : r.Reads bs a) (hf : (f a).Reads [] b) : (r >>= f).Reads bs b := by
  have h := hr.bind hf
  rwa [List.append_nil] at h

theorem Reads.map {r : Reader α} {bs : Bytes} {a : α} (hr : r.Reads bs a) (f : α → β) :
    (r >>= fun a => Pure.pure (f a)).Reads bs (f a) :=
  hr.bind_nil (Reads.pure (f a))

theorem Reads.offset {f : Nat → Reader α} {bs : Bytes} {a : α}
    (hf : ∀ start, (f start).Reads bs a) : (Reader.offset >>= f).Reads bs a :=
  fun start rest => hf start start rest

theorem Reads.decode {r : Reader α} {bs : Bytes} {a : α} (hr : r.Reads bs a) :
    r.decode bs = .ok a := by
  have h := hr 0 []
  rw [List.append_nil] at h
  show (Reader.bind r _ ⟨0, bs⟩).1 = _
  rw [Reader.bind, h]
  rfl

theorem Takes.bind {r : Reader α} {f : α → Reader β} {bs bs' : Bytes} {a : α} {b : β}
    (hr : r.Takes bs a) (hf : (f a).Takes bs' b) : (r >>= f).Takes (bs ++ bs') b := by
  intro offset rest b' c h
  rw [List.append_assoc] at h
  obtain ⟨a', ⟨offset₁, rest₁⟩, ha, h⟩ := bind_eq_ok.mp h
  obtain ⟨rfl, hrest⟩ := hr ha
  replace hrest : rest₁ = bs' ++ rest := hrest
  subst hrest
  exact hf h

theorem Takes.fail {bs : Bytes} {a : α} (e : DecodeError) : (Reader.fail e).Takes bs a :=
  fun _ _ _ _ h => absurd h fail_ne_ok

section Conditional

variable {r : Reader α} {f : α → Reader β} {Q Q' : Prop} {bs bs' : Bytes} {a : α} {b : β}

theorem Reads.always (h : r.Reads bs a) : r.ReadsIf Q bs a where
  reads _ := h
  takes offset rest b c hb := by
    rw [h offset rest] at hb
    cases hb
    exact ⟨rfl, rfl⟩

theorem ReadsIf.mono (h : r.ReadsIf Q bs a) (hQ : Q' → Q) : r.ReadsIf Q' bs a :=
  ⟨fun h' => h.reads (hQ h'), h.takes⟩

theorem ReadsIf.bind (hr : r.ReadsIf Q bs a) (hf : (f a).ReadsIf Q bs' b) :
    (r >>= f).ReadsIf Q (bs ++ bs') b :=
  ⟨fun h => (hr.reads h).bind (hf.reads h), hr.takes.bind hf.takes⟩

theorem ReadsIf.bind_nil (hr : r.ReadsIf Q bs a) (hf : (f a).ReadsIf Q [] b) :
    (r >>= f).ReadsIf Q bs b := by
  have h := hr.bind hf
  rwa [List.append_nil] at h

theorem ReadsIf.map (hr : r.ReadsIf Q bs a) (f : α → β) :
    (r >>= fun a => Pure.pure (f a)).ReadsIf Q bs (f a) :=
  hr.bind_nil (Reads.pure (f a)).always

theorem ReadsIf.offset {f : Nat → Reader α} (hf : ∀ start, (f start).ReadsIf Q bs a) :
    (Reader.offset >>= f).ReadsIf Q bs a :=
  ⟨fun h => .offset fun start => (hf start).reads h, fun start _ _ _ h => (hf start).takes h⟩

end Conditional

theorem Spells.mono {r : Reader α} {P Q : α → Bytes → Prop} (hr : r.Spells P)
    (h : ∀ a bs, P a bs → Q a bs) : r.Spells Q := by
  intro c a c' ha
  obtain ⟨bs, hP, hc⟩ := hr ha
  exact ⟨bs, h a bs hP, hc⟩

theorem Spells.pure {P : α → Bytes → Prop} {a : α} (h : P a []) :
    (Pure.pure a : Reader α).Spells P := by
  intro c b c' hb
  obtain ⟨rfl, rfl⟩ := pure_eq_ok.mp hb
  exact ⟨[], h, rfl⟩

theorem Spells.fail {P : α → Bytes → Prop} (e : DecodeError) : (Reader.fail e).Spells P :=
  fun _ _ _ h => absurd h fail_ne_ok

theorem Spells.bindWith {r : Reader α} {f : α → Reader β} {write : α → Bytes} {Q : α → Prop}
    {P : β → Bytes → Prop} (hr : r.Spells fun a bs => bs = write a ∧ Q a)
    (hf : ∀ a, Q a → (f a).Spells fun b bs => P b (write a ++ bs)) : (r >>= f).Spells P := by
  intro c b c' h
  obtain ⟨a, c₁, ha, h⟩ := bind_eq_ok.mp h
  obtain ⟨_, ⟨rfl, hQ⟩, hc⟩ := hr ha
  obtain ⟨bs, hP, hc₁⟩ := hf a hQ h
  exact ⟨write a ++ bs, hP, by rw [hc, hc₁, List.append_assoc]⟩

theorem Spells.bind {r : Reader α} {f : α → Reader β} {write : α → Bytes} {P : β → Bytes → Prop}
    (hr : r.Spells fun a bs => bs = write a)
    (hf : ∀ a, (f a).Spells fun b bs => P b (write a ++ bs)) : (r >>= f).Spells P :=
  (hr.mono fun _ _ h => ⟨h, trivial⟩).bindWith fun a _ => hf a

theorem Spells.offset {f : Nat → Reader α} {P : α → Bytes → Prop}
    (hf : ∀ start, (f start).Spells P) : (Reader.offset >>= f).Spells P :=
  fun c _ _ h => hf c.offset h

theorem Spells.map {r : Reader α} {write : α → Bytes} {f : α → β} {P : β → Bytes → Prop}
    (hr : r.Spells fun a bs => bs = write a) (h : ∀ a, P (f a) (write a)) :
    (r >>= fun a => Pure.pure (f a)).Spells P :=
  hr.bind fun a => .pure (by rw [List.append_nil]; exact h a)

theorem Spells.mapWith {r : Reader α} {write : α → Bytes} {Q : α → Prop} {f : α → β}
    {P : β → Bytes → Prop} (hr : r.Spells fun a bs => bs = write a ∧ Q a)
    (h : ∀ a, Q a → P (f a) (write a)) : (r >>= fun a => Pure.pure (f a)).Spells P :=
  hr.bindWith fun a ha => .pure (by rw [List.append_nil]; exact h a ha)

theorem decode_eq_ok {r : Reader α} {bs : Bytes} {a : α} :
    r.decode bs = .ok a ↔ ∃ c, r ⟨0, bs⟩ = (.ok a, c) ∧ c.rest = [] := by
  show (Reader.bind r _ ⟨0, bs⟩).1 = _ ↔ _
  rw [Reader.bind]
  rcases r ⟨0, bs⟩ with ⟨_ | b, c⟩
  · simp
  · show (Reader.bind finish _ c).1 = _ ↔ _
    rw [Reader.bind, finish]
    cases hc : c.rest with
    | nil => simp [Reader.pure, Pure.pure, hc]
    | cons x xs =>
      simp only [List.isEmpty_cons, Bool.false_eq_true, if_false, reduceCtorEq, false_iff]
      rintro ⟨_, h, hrest⟩
      cases h
      rw [hc] at hrest
      cases hrest

theorem Takes.decode {r : Reader α} {bs : Bytes} {a b : α} (hr : r.Takes bs a)
    (h : r.decode bs = .ok b) : b = a := by
  obtain ⟨c, hc, -⟩ := decode_eq_ok.mp h
  rw [← List.append_nil bs] at hc
  exact (hr hc).1

/-! ### One spelling for each value -/

/-- Among the values that satisfy `Q`, the reader undoes the writer, and it reads nothing else. -/
structure Inverts (r : Reader α) (write : α → Bytes) (Q : α → Prop) : Prop where
  reads : ∀ a, Q a → r.Reads (write a) a
  spells : r.Spells fun a bs => bs = write a ∧ Q a

theorem Inverts.eq_ok_iff {r : Reader α} {write : α → Bytes} {Q : α → Prop}
    (h : r.Inverts write Q) {c c' : Cursor} {a : α} :
    r c = (.ok a, c') ↔
      Q a ∧ c.rest = write a ++ c'.rest ∧ c'.offset = c.offset + (write a).length := by
  constructor
  · intro ha
    obtain ⟨_, ⟨rfl, hQ⟩, hc⟩ := h.spells ha
    have hread : r c = (.ok a, ⟨c.offset + (write a).length, c'.rest⟩) := by
      show r ⟨c.offset, c.rest⟩ = _
      rw [hc]
      exact h.reads a hQ c.offset c'.rest
    rw [ha] at hread
    exact ⟨hQ, hc, congrArg (Cursor.offset ∘ Prod.snd) hread⟩
  · rintro ⟨hQ, hc, hoffset⟩
    show r ⟨c.offset, c.rest⟩ = (.ok a, ⟨c'.offset, c'.rest⟩)
    rw [hc, hoffset]
    exact h.reads a hQ c.offset c'.rest

theorem Inverts.decode_eq_ok {r : Reader α} {write : α → Bytes} {Q : α → Prop}
    (h : r.Inverts write Q) {bs : Bytes} {a : α} : r.decode bs = .ok a ↔ Q a ∧ write a = bs := by
  constructor
  · intro ha
    obtain ⟨c, hc, hrest⟩ := Reader.decode_eq_ok.mp ha
    obtain ⟨hQ, hbs, -⟩ := h.eq_ok_iff.mp hc
    rw [hrest, List.append_nil] at hbs
    exact ⟨hQ, hbs.symm⟩
  · rintro ⟨hQ, rfl⟩
    exact (h.reads a hQ).decode

/-! ### Bytes and numbers of a fixed width -/

theorem reads_take (bs : Bytes) : (take bs.length).Reads bs bs := by
  intro offset rest
  simp [take]

theorem take_eq_ok {count : Nat} {c c' : Cursor} {bs : List UInt8}
    (h : take count c = (.ok bs, c')) : bs.length = count ∧ c.rest = bs ++ c'.rest := by
  simp only [take] at h
  split at h
  · rename_i hlen
    cases h
    exact ⟨hlen, (List.take_append_drop count c.rest).symm⟩
  · cases h

theorem spells_take (count : Nat) : (take count).Spells fun value bs => bs = value :=
  fun _ _ _ h => ⟨_, rfl, (take_eq_ok h).2⟩

theorem reads_u8 (b : UInt8) : Reader.u8.Reads (Wire.u8 b) b := fun _ _ => rfl

theorem u8_eq_ok {c c' : Cursor} {b : UInt8} (h : Reader.u8 c = (.ok b, c')) :
    c.rest = b :: c'.rest := by
  rcases c with ⟨offset, _ | ⟨b', rest⟩⟩
  · cases h
  · cases h
    rfl

theorem spells_u8 : Reader.u8.Spells fun b bs => bs = Wire.u8 b :=
  fun _ _ _ h => ⟨_, rfl, u8_eq_ok h⟩

theorem reads_number (width n : Nat) (hn : n < Nat.pow 256 width) :
    (number width).Reads (littleEndian width n) n := by
  have h := (reads_take (littleEndian width n)).map ofLittleEndian
  rwa [length_littleEndian, ofLittleEndian_littleEndian, Nat.mod_eq_of_lt hn] at h

theorem number_eq_ok {width n : Nat} {c c' : Cursor} (h : number width c = (.ok n, c')) :
    n < Nat.pow 256 width ∧ c.rest = littleEndian width n ++ c'.rest := by
  obtain ⟨bs, c₁, hbs, h⟩ := bind_eq_ok.mp h
  obtain ⟨rfl, rfl⟩ := pure_eq_ok.mp h
  obtain ⟨rfl, hrest⟩ := take_eq_ok hbs
  rw [littleEndian_ofLittleEndian]
  exact ⟨ofLittleEndian_lt bs, hrest⟩

theorem reads_u16 (n : UInt16) : Reader.u16.Reads (Wire.u16 n) n := by
  have h := (reads_number 2 n.toNat n.toNat_lt).map UInt16.ofNat
  rwa [UInt16.ofNat_toNat] at h

theorem spells_u16 : Reader.u16.Spells fun n bs => bs = Wire.u16 n := by
  intro c n c' h
  obtain ⟨m, c₁, hm, h⟩ := bind_eq_ok.mp h
  obtain ⟨rfl, rfl⟩ := pure_eq_ok.mp h
  obtain ⟨hlt, hrest⟩ := number_eq_ok hm
  exact ⟨_, rfl, by rw [hrest, Wire.u16, UInt16.toNat_ofNat_of_lt' hlt]⟩

theorem reads_u32 (n : UInt32) : Reader.u32.Reads (Wire.u32 n) n := by
  have h := (reads_number 4 n.toNat n.toNat_lt).map UInt32.ofNat
  rwa [UInt32.ofNat_toNat] at h

theorem spells_u32 : Reader.u32.Spells fun n bs => bs = Wire.u32 n := by
  intro c n c' h
  obtain ⟨m, c₁, hm, h⟩ := bind_eq_ok.mp h
  obtain ⟨rfl, rfl⟩ := pure_eq_ok.mp h
  obtain ⟨hlt, hrest⟩ := number_eq_ok hm
  exact ⟨_, rfl, by rw [hrest, Wire.u32, UInt32.toNat_ofNat_of_lt' hlt]⟩

theorem reads_u64 (n : UInt64) : Reader.u64.Reads (Wire.u64 n) n := by
  have h := (reads_number 8 n.toNat n.toNat_lt).map UInt64.ofNat
  rwa [UInt64.ofNat_toNat] at h

theorem spells_u64 : Reader.u64.Spells fun n bs => bs = Wire.u64 n := by
  intro c n c' h
  obtain ⟨m, c₁, hm, h⟩ := bind_eq_ok.mp h
  obtain ⟨rfl, rfl⟩ := pure_eq_ok.mp h
  obtain ⟨hlt, hrest⟩ := number_eq_ok hm
  exact ⟨_, rfl, by rw [hrest, Wire.u64, UInt64.toNat_ofNat_of_lt' hlt]⟩

theorem reads_u128 (n : BitVec 128) : Reader.u128.Reads (Wire.u128 n) n := by
  have h := (reads_number 16 n.toNat n.isLt).map (BitVec.ofNat 128)
  rwa [BitVec.ofNat_toNat, BitVec.setWidth_eq] at h

theorem reads_bool (b : Bool) : Reader.bool.Reads (Wire.bool b) b := by
  intro offset rest
  cases b <;> rfl

theorem spells_bool : Reader.bool.Spells fun b bs => bs = Wire.bool b := by
  refine .offset fun start => spells_u8.bind fun byte => ?_
  split_ifs with h0 h1
  · exact .pure (h0 ▸ rfl)
  · exact .pure (h1 ▸ rfl)
  · exact .fail _

end Wire.Reader

end ObjectLedger
