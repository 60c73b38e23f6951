import Mathlib.Data.List.Basic
import Mathlib.Data.List.TakeWhile
import Mathlib.Tactic.Tauto
import ObjectLedger.Ledger.Address

/-!
# Addresses read back

Bytes are an address when there are thirty-two of them. The full text of an address is `0x` and
sixty-four digits, all of them ASCII, and reading it gives the address. Whatever else is read as an address
is made of digits and a marker too, between blanks.
-/

namespace ObjectLedger

/-! ### Thirty-two bytes -/

theorem Bytes32.ofBytes?_bytes (b : Bytes32) : Bytes32.ofBytes? b.bytes = some b := by
  rw [Bytes32.ofBytes?, dif_pos b.length_bytes]

theorem Bytes32.bytes_of_ofBytes? {bytes : List UInt8} {b : Bytes32}
    (h : Bytes32.ofBytes? bytes = some b) : bytes = b.bytes := by
  rw [Bytes32.ofBytes?] at h
  split_ifs at h
  cases h
  rfl

/-! ### Hexadecimal digits -/

namespace Hex

def IsDigit (c : Char) : Prop := ∃ n < 16, c = digit n

theorem value?_digit : ∀ n < 16, value? (digit n) = some n := by decide

theorem utf8Size_digit : ∀ n < 16, (digit n).utf8Size = 1 := by decide

theorem isBlank_digit : ∀ n < 16, isBlank (digit n) = false := by decide

theorem decode?_ofByte_append (b : UInt8) (cs : List Char) :
    decode? (ofByte b ++ cs) = (decode? cs).map (b :: ·) := by
  have hb := b.toNat_lt
  have hhigh := value?_digit (b.toNat / 16) (by omega)
  have hlow := value?_digit (b.toNat % 16) (by omega)
  have hsum : 16 * (b.toNat / 16) + b.toNat % 16 = b.toNat := Nat.div_add_mod _ _
  rw [ofByte, List.cons_append, List.cons_append, List.nil_append, decode?, hhigh, hlow]
  cases decode? cs with
  | none => rfl
  | some bytes => simp [hsum]

theorem decode?_encode (bytes : List UInt8) : decode? (encode bytes) = some bytes := by
  induction bytes with
  | nil => rfl
  | cons b bytes ih => rw [encode, List.flatMap_cons, decode?_ofByte_append, ← encode, ih]; rfl

theorem length_encode (bytes : List UInt8) : (encode bytes).length = 2 * bytes.length := by
  induction bytes with
  | nil => rfl
  | cons b bytes ih =>
    rw [encode, List.flatMap_cons, ← encode, List.length_append, ih, List.length_cons]
    simp only [ofByte, List.length_cons, List.length_nil]
    omega

theorem isDigit_of_mem_encode {bytes : List UInt8} {c : Char} (h : c ∈ encode bytes) :
    IsDigit c := by
  obtain ⟨b, -, hc⟩ := List.mem_flatMap.mp h
  have hb := b.toNat_lt
  rw [ofByte, List.mem_pair] at hc
  rcases hc with rfl | rfl
  · exact ⟨_, by omega, rfl⟩
  · exact ⟨_, by omega, rfl⟩

theorem isSome_value?_of_decode? {cs : List Char} {bytes : List UInt8} (h : decode? cs = some bytes)
    {c : Char} (hc : c ∈ cs) : (value? c).isSome = true := by
  fun_induction decode? cs generalizing bytes with
  | case1 => cases hc
  | case2 => cases h
  | case3 hi lo rest high low more hrest hlow hhigh ih =>
    rcases List.mem_cons.mp hc with rfl | hc
    · rw [hhigh]
      rfl
    rcases List.mem_cons.mp hc with rfl | hc
    · rw [hlow]
      rfl
    · exact ih hrest hc
  | case4 => cases h

end Hex

/-! ### White space at the ends -/

theorem trimBlank_eq_self {cs : List Char} (h : ∀ c ∈ cs, isBlank c = false) :
    trimBlank cs = cs := by
  have hkeep : ∀ ds : List Char, (∀ c ∈ ds, isBlank c = false) → ds.dropWhile isBlank = ds := by
    intro ds hds
    cases ds with
    | nil => rfl
    | cons d ds => rw [List.dropWhile_cons_of_neg (by simp [hds])]
  rw [trimBlank, hkeep cs h, hkeep cs.reverse fun c hc => h c (List.mem_reverse.mp hc),
    List.reverse_reverse]

theorem mem_trimBlank {cs : List Char} {c : Char} (hc : c ∈ cs) (h : isBlank c = false) :
    c ∈ trimBlank cs := by
  have hdrop : ∀ ds : List Char, c ∈ ds → c ∈ ds.dropWhile isBlank := by
    intro ds hds
    rw [← List.takeWhile_append_dropWhile (p := isBlank) (l := ds), List.mem_append] at hds
    rcases hds with hds | hds
    · rw [List.mem_takeWhile_imp hds] at h
      cases h
    · exact hds
  rw [trimBlank, List.mem_reverse]
  exact hdrop _ (List.mem_reverse.mpr (hdrop _ hc))

/-! ### Addresses -/

namespace Address

theorem utf8Length_eq_length {cs : List Char} (h : ∀ c ∈ cs, c.utf8Size = 1) :
    utf8Length cs = cs.length := by
  have hfold : ∀ n, cs.foldl (fun n c => n + c.utf8Size) n = n + cs.length := by
    induction cs with
    | nil => exact fun n => rfl
    | cons c cs ih =>
      intro n
      rw [List.foldl_cons, ih (fun c hc => h c (List.mem_cons_of_mem _ hc)),
        h c List.mem_cons_self, List.length_cons]
      omega
  rw [utf8Length, hfold, Nat.zero_add]

theorem isBlank_of_mem_chars {a : Address} {c : Char} (h : c ∈ a.chars) : isBlank c = false := by
  rcases List.mem_cons.mp h with rfl | h
  · decide
  rcases List.mem_cons.mp h with rfl | h
  · decide
  obtain ⟨n, hn, rfl⟩ := Hex.isDigit_of_mem_encode h
  exact Hex.isBlank_digit n hn

theorem parse_text (a : Address) : parse a.text = .ok a := by
  have hlen : (Hex.encode a.bytes).length = 64 := by
    rw [Hex.length_encode, show a.bytes.length = 32 from a.value.length_bytes]
  have hutf8 : utf8Length (Hex.encode a.bytes) = 64 := by
    rw [utf8Length_eq_length, hlen]
    intro c hc
    obtain ⟨n, hn, rfl⟩ := Hex.isDigit_of_mem_encode hc
    exact Hex.utf8Size_digit n hn
  have hvalue : Bytes32.ofBytes? a.bytes = some a.value := Bytes32.ofBytes?_bytes a.value
  have hne : Hex.encode a.bytes ≠ [] := List.ne_nil_of_length_pos (by omega)
  rw [parse, text, String.toList_ofList, trimBlank_eq_self fun _ => isBlank_of_mem_chars, chars,
    dropMarker]
  simp only [hne, hutf8, hlen, Nat.lt_irrefl, if_false, Nat.sub_self, List.replicate_zero,
    List.nil_append, Hex.decode?_encode, hvalue]

theorem mem_dropMarker {cs : List Char} {c : Char} (hc : c ∈ cs) :
    c = '0' ∨ c = 'x' ∨ c = 'X' ∨ c ∈ dropMarker cs := by
  unfold dropMarker
  split
  · simp only [List.mem_cons] at hc
    tauto
  · simp only [List.mem_cons] at hc
    tauto
  · exact .inr (.inr (.inr hc))

theorem isDigit_of_parse {cs : List Char} {a : Address} (h : parse (String.ofList cs) = .ok a)
    {c : Char} (hc : c ∈ cs) (hblank : isBlank c = false) :
    c = 'x' ∨ c = 'X' ∨ (Hex.value? c).isSome = true := by
  have hmem := mem_dropMarker (mem_trimBlank hc hblank)
  unfold parse at h
  simp only [String.toList_ofList] at h
  split_ifs at h
  split at h
  · rename_i bytes hdecode
    rcases hmem with rfl | rfl | rfl | hmem
    · decide
    · exact .inl rfl
    · exact .inr (.inl rfl)
    · exact .inr (.inr (Hex.isSome_value?_of_decode? hdecode (List.mem_append_right _ hmem)))
  · cases h

end Address

end ObjectLedger
