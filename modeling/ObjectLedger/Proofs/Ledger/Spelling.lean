import Mathlib.Data.Nat.Digits.Lemmas
import ObjectLedger.Proofs.Ledger.Address
import ObjectLedger.Proofs.Prelude

/-!
# How addresses are spelled

The texts that are read as an address are those that spell digits: one to sixty-four hexadecimal digits in
either case, behind one marker or none, with white space around. The address is the number that the digits
make up, as thirty-two bytes with the most significant first. So two texts are read as one address just when
their digits are the same but for the case and the zeros in front.
-/

namespace ObjectLedger

/-! ### Hexadecimal digits in either case -/

namespace Hex

/-- A digit in either case stands for a number below sixteen. -/
def StandsFor (c : Char) (n : Nat) : Prop := n < 16 ∧ (c = digit n ∨ c = (digit n).toUpper)

variable {c : Char} {n : Nat}

theorem value?_toUpper_digit : ∀ n < 16, value? (digit n).toUpper = some n := by decide

theorem toUpper_digit : ∀ n < 16, 10 ≤ n → (digit n).toUpper = Char.ofNat (n + 55) := by decide

theorem StandsFor.value?_eq_some (h : StandsFor c n) : value? c = some n := by
  obtain ⟨hn, rfl | rfl⟩ := h
  · exact value?_digit n hn
  · exact value?_toUpper_digit n hn

theorem standsFor_of_value? (h : value? c = some n) : StandsFor c n := by
  have hle : ∀ d e : Char, d ≤ e ↔ d.toNat ≤ e.toNat := fun d e => Iff.rfl
  have hchar : ∀ k, k = c.toNat → c = Char.ofNat k := by
    rintro _ rfl
    exact (Char.ofNat_toNat c).symm
  unfold value? at h
  simp only [hle] at h
  split_ifs at h with hnumeral hlower hupper
  · obtain ⟨hlow, hhigh⟩ : 48 ≤ c.toNat ∧ c.toNat ≤ 57 := hnumeral
    cases h
    refine ⟨by omega, .inl ?_⟩
    rw [digit, if_pos (by omega)]
    exact hchar _ (by omega)
  · obtain ⟨hlow, hhigh⟩ : 97 ≤ c.toNat ∧ c.toNat ≤ 102 := hlower
    cases h
    refine ⟨by omega, .inl ?_⟩
    rw [digit, if_neg (by omega)]
    exact hchar _ (by omega)
  · obtain ⟨hlow, hhigh⟩ : 65 ≤ c.toNat ∧ c.toNat ≤ 70 := hupper
    cases h
    refine ⟨by omega, .inr ?_⟩
    rw [toUpper_digit _ (by omega) (by omega)]
    exact hchar _ (by omega)

theorem StandsFor.utf8Size (h : StandsFor c n) : c.utf8Size = 1 := by
  have hupper : ∀ n < 16, (digit n).toUpper.utf8Size = 1 := by decide
  obtain ⟨hn, rfl | rfl⟩ := h
  · exact utf8Size_digit n hn
  · exact hupper n hn

theorem StandsFor.isBlank (h : StandsFor c n) : isBlank c = false := by
  have hupper : ∀ n < 16, ObjectLedger.isBlank (digit n).toUpper = false := by decide
  obtain ⟨hn, rfl | rfl⟩ := h
  · exact isBlank_digit n hn
  · exact hupper n hn

theorem StandsFor.toLower (h : StandsFor c n) : c.toLower = digit n := by
  have hlower : ∀ n < 16, (digit n).toLower = digit n := by decide
  have hupper : ∀ n < 16, (digit n).toUpper.toLower = digit n := by decide
  obtain ⟨hn, rfl | rfl⟩ := h
  · exact hlower n hn
  · exact hupper n hn

/-! ### Numbers in digits -/

/-- The number that digits make up, the most significant first. -/
def number (values : List Nat) : Nat := Nat.ofDigits 16 values.reverse

variable {ds es : List Char} {vs ws : List Nat} {bytes : List UInt8}

theorem number_cons (v : Nat) (vs : List Nat) : number (v :: vs) = number vs + 16 ^ vs.length * v := by
  rw [number, List.reverse_cons, Nat.ofDigits_append, Nat.ofDigits_singleton, List.length_reverse,
    number]

theorem number_replicate_append (k : Nat) (vs : List Nat) :
    number (List.replicate k 0 ++ vs) = number vs := by
  rw [number, List.reverse_append, List.reverse_replicate, Nat.ofDigits_append_replicate_zero, number]

theorem number_dropWhile (vs : List Nat) : number (vs.dropWhile (· == 0)) = number vs := by
  induction vs with
  | nil => rfl
  | cons v vs ih =>
    by_cases hv : v = 0
    · rw [List.dropWhile_cons_of_pos (by simpa using hv), ih, number_cons, hv, Nat.mul_zero,
        Nat.add_zero]
    · rw [List.dropWhile_cons_of_neg (by simpa using hv)]

theorem number_eq_iff (hvs : ∀ v ∈ vs, v < 16) (hws : ∀ w ∈ ws, w < 16) :
    number vs = number ws ↔ vs.dropWhile (· == 0) = ws.dropWhile (· == 0) := by
  have hdigits : ∀ {xs : List Nat}, (∀ x ∈ xs, x < 16) →
      Nat.digits 16 (number xs) = (xs.dropWhile (· == 0)).reverse := by
    intro xs hxs
    rw [← number_dropWhile, number]
    refine Nat.digits_ofDigits 16 (by decide) _ ?_ ?_
    · intro x hx
      exact hxs x ((List.dropWhile_suffix _).subset (List.mem_reverse.mp hx))
    · intro hne
      rw [List.getLast_reverse]
      simpa using List.head_dropWhile_not (· == 0) (l := xs) (by simpa using hne)
  constructor
  · intro h
    exact List.reverse_injective (by rw [← hdigits hvs, ← hdigits hws, h])
  · intro h
    rw [← number_dropWhile vs, h, number_dropWhile]

/-- Digits in lower case, without the zeros in front. -/
def significant (ds : List Char) : List Char := (ds.map Char.toLower).dropWhile (· == '0')

theorem significant_eq (h : List.Forall₂ StandsFor ds vs) :
    significant ds = (vs.dropWhile (· == 0)).map digit := by
  have hzero : ∀ n < 16, (digit n == '0') = (n == 0) := by decide
  have hlower : ds.map Char.toLower = vs.map digit := by
    induction h with
    | nil => rfl
    | cons hc _ ih => rw [List.map_cons, List.map_cons, hc.toLower, ih]
  rw [significant, hlower]
  clear hlower
  induction h with
  | nil => rfl
  | @cons c n ds vs hc _ ih =>
    rw [List.map_cons, List.dropWhile_cons, List.dropWhile_cons, hzero n hc.1]
    split_ifs
    · exact ih
    · rfl

theorem lt_of_standFor (h : List.Forall₂ StandsFor ds vs) : ∀ v ∈ vs, v < 16 := by
  intro v hv
  obtain ⟨c, -, hc⟩ := h.exists_left hv
  exact hc.1

theorem number_eq_iff_significant (h : List.Forall₂ StandsFor ds vs)
    (h' : List.Forall₂ StandsFor es ws) :
    number vs = number ws ↔ significant ds = significant es := by
  have hback : ∀ {xs : List Nat}, (∀ x ∈ xs, x < 16) →
      ((xs.dropWhile (· == 0)).map digit).filterMap value? = xs.dropWhile (· == 0) := by
    intro xs hxs
    have hdigit : ∀ x ∈ xs.dropWhile (· == 0), (value? ∘ digit) x = some x := fun x hx =>
      value?_digit x (hxs x ((List.dropWhile_suffix _).subset hx))
    rw [List.filterMap_map, List.filterMap_congr hdigit, List.filterMap_some]
  rw [number_eq_iff (lt_of_standFor h) (lt_of_standFor h'), significant_eq h, significant_eq h']
  constructor
  · exact congrArg (List.map digit)
  · intro heq
    rw [← hback (lt_of_standFor h), heq, hback (lt_of_standFor h')]

/-! ### What is decoded -/

theorem ofLittleEndian_append (xs ys : List UInt8) :
    ofLittleEndian (xs ++ ys) = ofLittleEndian xs + 256 ^ xs.length * ofLittleEndian ys := by
  induction xs with
  | nil => simp [ofLittleEndian]
  | cons b xs ih =>
    rw [List.cons_append, ofLittleEndian, ih, ofLittleEndian, List.length_cons, Nat.pow_succ]
    ring

theorem exists_decode? {k : Nat} (h : List.Forall₂ StandsFor ds vs) (hlen : ds.length = 2 * k) :
    ∃ bytes, decode? ds = some bytes ∧ bytes.length = k ∧ ofLittleEndian bytes.reverse = number vs := by
  induction k generalizing ds vs with
  | zero =>
    cases h with
    | nil => exact ⟨[], rfl, rfl, rfl⟩
    | cons => cases hlen
  | succ k ih =>
    cases h with
    | nil => cases hlen
    | @cons hi high _ _ hhi h =>
    cases h with
    | nil => simp at hlen; omega
    | @cons lo low ds vs hlo h =>
    have hlen' : ds.length = 2 * k := by simp at hlen; omega
    obtain ⟨bytes, hdecode, hcount, hnumber⟩ := ih h hlen'
    have hbyte : (UInt8.ofNat (16 * high + low)).toNat = 16 * high + low := by
      have := hhi.1
      have := hlo.1
      rw [UInt8.toNat_ofNat']
      omega
    have hvs : vs.length = 2 * k := by rw [← h.length_eq, hlen']
    refine ⟨UInt8.ofNat (16 * high + low) :: bytes, ?_, by rw [List.length_cons, hcount], ?_⟩
    · rw [decode?, hhi.value?_eq_some, hlo.value?_eq_some, hdecode]
    · rw [List.reverse_cons, ofLittleEndian_append, hnumber, List.length_reverse, hcount, number_cons,
        number_cons, ofLittleEndian, ofLittleEndian, hbyte, List.length_cons, hvs, Nat.pow_succ,
        Nat.pow_mul]
      ring

end Hex

/-! ### White space and markers -/

theorem exists_append_trimBlank (cs : List Char) :
    ∃ before after, cs = before ++ trimBlank cs ++ after ∧ (∀ c ∈ before, isBlank c = true) ∧
      ∀ c ∈ after, isBlank c = true := by
  refine ⟨cs.takeWhile isBlank, ((cs.dropWhile isBlank).reverse.takeWhile isBlank).reverse, ?_, ?_, ?_⟩
  · rw [trimBlank, List.append_assoc, ← List.reverse_append, List.takeWhile_append_dropWhile,
      List.reverse_reverse, List.takeWhile_append_dropWhile]
  · exact fun c hc => List.mem_takeWhile_imp hc
  · exact fun c hc => List.mem_takeWhile_imp (List.mem_reverse.mp hc)

theorem trimBlank_append {before core after : List Char} (hbefore : ∀ c ∈ before, isBlank c = true)
    (hcore : ∀ c ∈ core, isBlank c = false) (hafter : ∀ c ∈ after, isBlank c = true)
    (hne : core ≠ []) : trimBlank (before ++ core ++ after) = core := by
  have hkeep : ∀ {cs ds : List Char}, cs ≠ [] → (∀ c ∈ cs, isBlank c = false) →
      (cs ++ ds).dropWhile isBlank = cs ++ ds := by
    intro cs ds hcs hblank
    obtain ⟨c, cs, rfl⟩ := List.exists_cons_of_ne_nil hcs
    exact List.dropWhile_cons_of_neg (by simp [hblank])
  rw [trimBlank, List.append_assoc, List.dropWhile_append_of_pos hbefore, hkeep hne hcore,
    List.reverse_append, List.dropWhile_append_of_pos (by simpa using hafter),
    ← List.append_nil core.reverse, hkeep (by simpa using hne) (by simpa using hcore),
    List.append_nil, List.reverse_reverse]

namespace Address

def markers : List (List Char) := [[], ['0', 'x'], ['0', 'X']]

theorem exists_marker (cs : List Char) : ∃ marker ∈ markers, cs = marker ++ dropMarker cs := by
  unfold dropMarker
  split
  · exact ⟨['0', 'x'], by decide, rfl⟩
  · exact ⟨['0', 'X'], by decide, rfl⟩
  · exact ⟨[], by decide, rfl⟩

/-- No digit is the letter of a marker, so digits that start with a zero are not taken for one. -/
theorem dropMarker_append {marker ds : List Char} {vs : List Nat} (hmarker : marker ∈ markers)
    (h : List.Forall₂ Hex.StandsFor ds vs) : dropMarker (marker ++ ds) = ds := by
  simp only [markers, List.mem_cons, List.not_mem_nil, or_false] at hmarker
  rcases hmarker with rfl | rfl | rfl
  · have hletter : ∀ c ∈ ds, c ≠ 'x' ∧ c ≠ 'X' := by
      intro c hc
      obtain ⟨n, -, hn⟩ := h.flip.exists_left hc
      have hvalue := Hex.StandsFor.value?_eq_some hn
      constructor <;> rintro rfl <;> cases hvalue
    rw [List.nil_append, dropMarker]
    · rintro rest rfl
      exact (hletter 'x' (by simp)).1 rfl
    · rintro rest rfl
      exact (hletter 'X' (by simp)).2 rfl
  · rfl
  · rfl

/-- A text spells digits of an address: between white space, and behind one marker or none, stand one to
sixty-four digits. -/
structure Spells (s : String) (digits : List Char) (values : List Nat) : Prop where
  framed : ∃ before marker after, s.toList = before ++ (marker ++ digits) ++ after ∧
    (∀ c ∈ before, isBlank c = true) ∧ marker ∈ markers ∧ ∀ c ∈ after, isBlank c = true
  standFor : List.Forall₂ Hex.StandsFor digits values
  ne_nil : digits ≠ []
  length_le : digits.length ≤ 64

variable {s : String} {a b : Address} {ds : List Char} {vs : List Nat}

theorem bytes_inj : a.bytes = b.bytes ↔ a = b := by
  refine ⟨fun h => ?_, congrArg bytes⟩
  obtain ⟨⟨bytes, hbytes⟩⟩ := a
  obtain ⟨⟨bytes', hbytes'⟩⟩ := b
  obtain rfl : bytes = bytes' := h
  rfl

theorem parse_eq_ok : parse s = .ok a ↔ dropMarker (trimBlank s.toList) ≠ [] ∧
    utf8Length (dropMarker (trimBlank s.toList)) ≤ 64 ∧
    Hex.decode? (List.replicate (64 - (dropMarker (trimBlank s.toList)).length) '0' ++
      dropMarker (trimBlank s.toList)) = some a.bytes := by
  unfold parse
  dsimp only
  split_ifs with hnil hlong
  · simp [hnil]
  · simp [hlong]
  · constructor
    · intro h
      refine ⟨hnil, Nat.le_of_not_lt hlong, ?_⟩
      split at h
      · rename_i bytes hdecode
        split at h
        · rename_i value hvalue
          cases h
          rw [hdecode, Bytes32.bytes_of_ofBytes? hvalue]
          rfl
        · cases h
      · cases h
    · rintro ⟨-, -, hdecode⟩
      rw [hdecode]
      simp only [bytes, Bytes32.ofBytes?_bytes]

theorem standFor_padded (h : List.Forall₂ Hex.StandsFor ds vs) (k : Nat) :
    List.Forall₂ Hex.StandsFor (List.replicate k '0' ++ ds) (List.replicate k 0 ++ vs) := by
  have hzero : Hex.StandsFor '0' 0 := ⟨by decide, .inl rfl⟩
  induction k with
  | zero => exact h
  | succ k ih => exact .cons hzero ih

theorem Spells.exists_parse (h : Spells s ds vs) :
    ∃ a, parse s = .ok a ∧ ofLittleEndian a.bytes.reverse = Hex.number vs := by
  obtain ⟨before, marker, after, hs, hbefore, hmarker, hafter⟩ := h.framed
  have hcore : ∀ c ∈ marker ++ ds, isBlank c = false := by
    intro c hc
    rcases List.mem_append.mp hc with hc | hc
    · have hmarkers : ∀ m ∈ markers, m.all (!isBlank ·) = true := by decide
      simpa using List.all_eq_true.mp (hmarkers marker hmarker) c hc
    · obtain ⟨n, -, hn⟩ := h.standFor.flip.exists_left hc
      exact Hex.StandsFor.isBlank hn
  have hne : marker ++ ds ≠ [] := by simp [h.ne_nil]
  have hdigits : dropMarker (trimBlank s.toList) = ds := by
    rw [hs, trimBlank_append hbefore hcore hafter hne, dropMarker_append hmarker h.standFor]
  have hutf8 : utf8Length ds = ds.length := by
    refine utf8Length_eq_length fun c hc => ?_
    obtain ⟨n, -, hn⟩ := h.standFor.flip.exists_left hc
    exact Hex.StandsFor.utf8Size hn
  have hlen := h.length_le
  obtain ⟨bytes, hdecode, hcount, hnumber⟩ := Hex.exists_decode? (k := 32)
    (standFor_padded h.standFor (64 - ds.length)) (by simp; omega)
  refine ⟨⟨⟨bytes, hcount⟩⟩, parse_eq_ok.mpr ?_, ?_⟩
  · rw [hdigits, hutf8]
    exact ⟨h.ne_nil, hlen, hdecode⟩
  · rw [Hex.number_replicate_append] at hnumber
    exact hnumber

theorem exists_spells (h : parse s = .ok a) : ∃ ds vs, Spells s ds vs := by
  obtain ⟨hne, hlen, hdecode⟩ := parse_eq_ok.mp h
  obtain ⟨before, after, hs, hbefore, hafter⟩ := exists_append_trimBlank s.toList
  obtain ⟨marker, hmarker, htrimmed⟩ := exists_marker (trimBlank s.toList)
  have hvalues : ∀ c ∈ dropMarker (trimBlank s.toList), ∃ n, Hex.StandsFor c n := by
    intro c hc
    obtain ⟨n, hn⟩ := Option.isSome_iff_exists.mp
      (Hex.isSome_value?_of_decode? hdecode (List.mem_append_right _ hc))
    exact ⟨n, Hex.standsFor_of_value? hn⟩
  obtain ⟨vs, hvs⟩ := List.exists_forall₂ hvalues
  refine ⟨_, vs, ⟨before, marker, after, ?_, hbefore, hmarker, hafter⟩, hvs, hne, ?_⟩
  · rw [← htrimmed]
    exact hs
  · rw [utf8Length_eq_length fun c hc => (hvalues c hc).elim fun n hn => hn.utf8Size] at hlen
    exact hlen

theorem bytes_eq_bigEndian_iff {n : Nat} (hn : n < 256 ^ 32) :
    a.bytes = bigEndian 32 n ↔ ofLittleEndian a.bytes.reverse = n := by
  have hlen : a.bytes.reverse.length = 32 := by
    rw [List.length_reverse]
    exact a.value.length_bytes
  constructor
  · intro h
    rw [h, bigEndian, List.reverse_reverse, ofLittleEndian_littleEndian]
    exact Nat.mod_eq_of_lt hn
  · rintro rfl
    rw [bigEndian, ← hlen, littleEndian_ofLittleEndian, List.reverse_reverse]

theorem Spells.number_lt (h : Spells s ds vs) : Hex.number vs < 256 ^ 32 := by
  have hlt : Hex.number vs < 16 ^ vs.length := by
    rw [← List.length_reverse, Hex.number]
    exact Nat.ofDigits_lt_base_pow_length (by decide)
      fun v hv => Hex.lt_of_standFor h.standFor v (List.mem_reverse.mp hv)
  have hlen : vs.length ≤ 64 := h.standFor.length_eq ▸ h.length_le
  calc Hex.number vs < 16 ^ vs.length := hlt
    _ ≤ 16 ^ 64 := Nat.pow_le_pow_right (by decide) hlen
    _ = 256 ^ 32 := by norm_num

theorem Spells.parse_eq_ok_iff (h : Spells s ds vs) :
    parse s = .ok a ↔ a.bytes = bigEndian 32 (Hex.number vs) := by
  obtain ⟨a', ha', hnumber⟩ := h.exists_parse
  have hbytes := (bytes_eq_bigEndian_iff h.number_lt).mpr hnumber
  rw [ha', ← hbytes]
  constructor
  · rintro ⟨⟩
    rfl
  · intro heq
    rw [bytes_inj.mp heq]

/-- **An address is read from the digits that spell it, and from nothing else.** A text is read as an address
exactly when it spells digits, one to sixty-four of them in either case behind at most one marker and between
white space, and the address is their number as thirty-two bytes. So the full text of an address is read as
the address, and two texts that are read give one address exactly when their digits agree in lower case
without the zeros in front. -/
theorem parse_spelled :
    (∀ (s : String) (a : Address), parse s = .ok a ↔
      ∃ digits values, Spells s digits values ∧ a.bytes = bigEndian 32 (Hex.number values)) ∧
    (∀ a : Address, parse a.text = .ok a) ∧
    ∀ (s t : String) (ds es : List Char) (vs ws : List Nat) (a b : Address), Spells s ds vs →
      Spells t es ws → parse s = .ok a → parse t = .ok b →
      (a = b ↔ Hex.significant ds = Hex.significant es) := by
  refine ⟨fun s a => ⟨fun h => ?_, ?_⟩, parse_text, ?_⟩
  · obtain ⟨ds, vs, hspells⟩ := exists_spells h
    exact ⟨ds, vs, hspells, hspells.parse_eq_ok_iff.mp h⟩
  · rintro ⟨ds, vs, hspells, hbytes⟩
    exact hspells.parse_eq_ok_iff.mpr hbytes
  · intro s t ds es vs ws a b hs ht ha hb
    have hbytes := hs.parse_eq_ok_iff.mp ha
    have hbytes' := ht.parse_eq_ok_iff.mp hb
    rw [← Hex.number_eq_iff_significant hs.standFor ht.standFor]
    constructor
    · rintro rfl
      rw [← (bytes_eq_bigEndian_iff hs.number_lt).mp hbytes,
        (bytes_eq_bigEndian_iff ht.number_lt).mp hbytes']
    · intro hnumber
      rw [← bytes_inj, hbytes, hbytes', hnumber]

/-- White space that is not ASCII, the other marker, a zero and a capital make no difference to two digits;
one more zero behind them does. -/
theorem parse_spelled_short :
    Spells "\u00a00X0aB\n" ['0', 'a', 'B'] [0, 10, 11] ∧ Spells "ab" ['a', 'b'] [10, 11] ∧
      Spells "0xab0" ['a', 'b', '0'] [10, 11, 0] ∧
      parse "\u00a00X0aB\n" = .ok (.ofUInt64 0xab) ∧ parse "ab" = .ok (.ofUInt64 0xab) ∧
      parse "0xab0" = .ok (.ofUInt64 0xab0) ∧
      Hex.significant ['0', 'a', 'B'] = Hex.significant ['a', 'b'] ∧
      Hex.significant ['a', 'b', '0'] ≠ Hex.significant ['a', 'b'] := by
  have hzero : Hex.StandsFor '0' 0 := ⟨by decide, .inl (by decide)⟩
  have ha : Hex.StandsFor 'a' 10 := ⟨by decide, .inl (by decide)⟩
  have hb : Hex.StandsFor 'b' 11 := ⟨by decide, .inl (by decide)⟩
  have hB : Hex.StandsFor 'B' 11 := ⟨by decide, .inr (by decide)⟩
  have hframed : Spells "\u00a00X0aB\n" ['0', 'a', 'B'] [0, 10, 11] :=
    ⟨⟨['\u00a0'], ['0', 'X'], ['\n'], by decide, List.forall_mem_singleton.mpr (by decide), by decide,
      List.forall_mem_singleton.mpr (by decide)⟩, .cons hzero (.cons ha (.cons hB .nil)), by decide,
      by decide⟩
  have hplain : Spells "ab" ['a', 'b'] [10, 11] :=
    ⟨⟨[], [], [], by decide, List.forall_mem_nil _, by decide, List.forall_mem_nil _⟩,
      .cons ha (.cons hb .nil), by decide, by decide⟩
  have hmore : Spells "0xab0" ['a', 'b', '0'] [10, 11, 0] :=
    ⟨⟨[], ['0', 'x'], [], by decide, List.forall_mem_nil _, by decide, List.forall_mem_nil _⟩,
      .cons ha (.cons hb (.cons hzero .nil)), by decide, by decide⟩
  have hparse : parse "\u00a00X0aB\n" = .ok (.ofUInt64 0xab) :=
    (parse_spelled.1 _ _).mpr ⟨_, _, hframed, by decide⟩
  have hparse' : parse "ab" = .ok (.ofUInt64 0xab) :=
    (parse_spelled.1 _ _).mpr ⟨_, _, hplain, by decide⟩
  have hparse'' : parse "0xab0" = .ok (.ofUInt64 0xab0) :=
    (parse_spelled.1 _ _).mpr ⟨_, _, hmore, by decide⟩
  refine ⟨hframed, hplain, hmore, hparse, hparse', hparse'', ?_, ?_⟩
  · exact (parse_spelled.2.2 _ _ _ _ _ _ _ _ hframed hplain hparse hparse').mp rfl
  · intro heq
    have hsame := (parse_spelled.2.2 _ _ _ _ _ _ _ _ hmore hplain hparse'' hparse').mpr heq
    exact absurd hsame (by decide)

end Address

end ObjectLedger
