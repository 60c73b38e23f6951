import ObjectLedger.Proofs.Wire.Ledger
import ObjectLedger.Proofs.Wire.Refusing

/-!
# Reading in front of more bytes

A reader persists when whatever it reads, it reads just so when more bytes follow. Failing reads need not
persist: a length that is refused for want of bytes is accepted when they are there. So all that a reader
looks at beyond what it takes may turn a refusal into a value, and never one value into another.

The readers persist that have a writer, and so does what is put together from readers that do. Decoding
with such a reader is prefix-free.
-/

namespace ObjectLedger

namespace Wire.Reader

variable {α β : Type} {r : Reader α}

/-- What the reader reads, it reads just so when more bytes follow. -/
def Persists (r : Reader α) : Prop :=
  ∀ ⦃c a c'⦄, r c = (.ok a, c') → ∀ more,
    r ⟨c.offset, c.rest ++ more⟩ = (.ok a, ⟨c'.offset, c'.rest ++ more⟩)

theorem persists_pure (a : α) : (Pure.pure a : Reader α).Persists := by
  intro c b c' h more
  obtain ⟨rfl, rfl⟩ := pure_eq_ok.mp h
  rfl

theorem persists_fail (e : DecodeError) : (fail e : Reader α).Persists :=
  fun _ _ _ h => absurd h fail_ne_ok

theorem Persists.bind {f : α → Reader β} (hr : r.Persists) (hf : ∀ a, (f a).Persists) :
    (r >>= f).Persists := by
  intro c b c' h more
  obtain ⟨a, c₁, ha, h⟩ := bind_eq_ok.mp h
  rw [bind_of_eq_ok (hr ha more)]
  exact hf a h more

theorem Persists.map (hr : r.Persists) (f : α → β) :
    (r >>= fun a => Pure.pure (f a)).Persists :=
  hr.bind fun a => persists_pure (f a)

theorem Persists.offset {f : Nat → Reader α} (hf : ∀ start, (f start).Persists) :
    (Reader.offset >>= f).Persists :=
  fun c _ _ h more => hf c.offset h more

theorem Inverts.persists {write : α → Bytes} {Q : α → Prop} (h : r.Inverts write Q) :
    r.Persists := by
  intro c a c' ha more
  obtain ⟨hQ, hrest, hoffset⟩ := h.eq_ok_iff.mp ha
  refine h.eq_ok_iff.mpr ⟨hQ, ?_, hoffset⟩
  rw [hrest, List.append_assoc]

theorem persists_of_reads_spells {write : α → Bytes} (hreads : ∀ a, r.Reads (write a) a)
    (hspells : r.Spells fun a bs => bs = write a) : r.Persists :=
  Inverts.persists (Q := fun _ => True)
    ⟨fun a _ => hreads a, hspells.mono fun _ _ h => ⟨h, trivial⟩⟩

/-! ### The parts of values -/

theorem persists_u16 : Reader.u16.Persists := persists_of_reads_spells reads_u16 spells_u16

theorem persists_u64 : Reader.u64.Persists := persists_of_reads_spells reads_u64 spells_u64

theorem persists_bool : Reader.bool.Persists := persists_of_reads_spells reads_bool spells_bool

theorem persists_address : Reader.address.Persists :=
  persists_of_reads_spells reads_address spells_address

theorem persists_objectRef : Reader.objectRef.Persists :=
  persists_of_reads_spells reads_objectRef spells_objectRef

theorem persists_uleb32 : uleb32.Persists :=
  Inverts.persists ⟨fun _ h => reads_uleb32 h, spells_uleb32_lt⟩

theorem persists_variant : variant.Persists := persists_uleb32

theorem persists_bytes : Reader.bytes.Persists :=
  Inverts.persists ⟨fun _ h => reads_bytes h, spells_bytes_lt⟩

theorem persists_string : Reader.string.Persists :=
  Inverts.persists ⟨fun _ h => reads_string h, spells_string_lt⟩

theorem persists_length : Reader.length.Persists := by
  refine .offset fun start => .bind persists_uleb32 fun n => ?_
  intro c m c' h more
  beta_reduce at h ⊢
  split_ifs at h with hlen
  · cases h
  · cases h
    rw [List.length_take] at hlen
    exact if_neg (by rw [List.length_take, List.length_append]; omega)

/-! ### Values put together -/

theorem Persists.option (hr : r.Persists) : (option r).Persists := by
  refine .bind persists_bool fun b => ?_
  cases b with
  | false => exact persists_pure none
  | true => exact hr.map some

theorem Persists.times (hr : r.Persists) (count : Nat) (acc : List α) :
    (times r count acc).Persists := by
  induction count generalizing acc with
  | zero =>
    intro c xs c' h more
    cases h
    rfl
  | succ count ih =>
    intro c xs c' h more
    rw [Reader.times] at h ⊢
    rcases ha : r c with ⟨e | a, c₁⟩
    · rw [ha] at h
      cases h
    · rw [ha] at h
      rw [hr ha more]
      exact ih (a :: acc) h more

theorem Persists.seq (hr : r.Persists) : (seq r).Persists :=
  .bind persists_length fun n => hr.times n []

end Wire.Reader

namespace Wire

/-! ### Decoding -/

/-- Of accepted bytes, no strict prefix is accepted, and nothing that goes on behind them, for the bytes
left over. -/
structure PrefixFree {α : Type} (decode : Bytes → Except DecodeError α) : Prop where
  shorter : ∀ {front back a}, decode (front ++ back) = .ok a → back ≠ [] →
    ∃ e, decode front = .error e
  longer : ∀ {bs more a}, decode bs = .ok a → more ≠ [] →
    decode (bs ++ more) = .error (.trailing more.length)

namespace Reader

variable {α : Type} {r : Reader α}

theorem decode_of_rest_ne_nil {bs : Bytes} {a : α} {c : Cursor} (h : r ⟨0, bs⟩ = (.ok a, c))
    (hrest : c.rest ≠ []) : r.decode bs = .error (.trailing c.remaining) := by
  show ((r >>= fun a => finish >>= fun _ => Pure.pure a : Reader α) ⟨0, bs⟩).1 = _
  rw [bind_of_eq_ok h]
  refine bind_of_eq_error ?_
  rw [finish, if_neg (by simpa using hrest)]

theorem Persists.prefixFree (hr : r.Persists) : PrefixFree r.decode := by
  have longer : ∀ {bs more a}, r.decode bs = .ok a → more ≠ [] →
      r.decode (bs ++ more) = .error (.trailing more.length) := by
    intro bs more a h hmore
    obtain ⟨c, hc, hrest⟩ := decode_eq_ok.mp h
    have hread := hr hc more
    rw [hrest, List.nil_append] at hread
    exact decode_of_rest_ne_nil hread hmore
  refine ⟨fun {front back a} h hback => ?_, longer⟩
  -- Were the shorter bytes accepted, the longer ones would leave some over.
  cases hfront : r.decode front with
  | error e => exact ⟨e, rfl⟩
  | ok b =>
    rw [longer hfront hback] at h
    cases h

end Reader

end Wire

end ObjectLedger
