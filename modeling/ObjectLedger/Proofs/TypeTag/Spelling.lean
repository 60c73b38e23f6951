import ObjectLedger.Proofs.Ledger.Address
import ObjectLedger.Proofs.Prelude
import ObjectLedger.Proofs.TypeTag.Basic

/-!
# How types are spelled

The texts that stand for a type, as a grammar: blanks may stand in front of a type and around brackets and
commas, but not inside a path, and the owner of a struct may have any form in which an address is read.
What is spelled so is read as that type, whatever may stand behind it: blanks, and then nothing, a comma or
a closing bracket.
-/

namespace ObjectLedger.TypeTag

/-! ### Characters of a path -/

theorem toNat_of_isIdentPart {c : Char} (h : isIdentPart c = true) :
    48 ≤ c.toNat ∧ c.toNat ≤ 57 ∨ 65 ≤ c.toNat ∧ c.toNat ≤ 90 ∨ c.toNat = 95 ∨
      97 ≤ c.toNat ∧ c.toNat ≤ 122 := by
  rcases Bool.or_eq_true_iff.mp h with halphanum | hunderscore
  · rcases Bool.or_eq_true_iff.mp halphanum with halpha | hdigit
    · rcases Bool.or_eq_true_iff.mp halpha with hupper | hlower
      · exact .inr (.inl (of_decide_eq_true hupper))
      · obtain ⟨hlow, hhigh⟩ := Bool.and_eq_true_iff.mp hlower
        exact .inr (.inr (.inr ⟨of_decide_eq_true hlow, of_decide_eq_true hhigh⟩))
    · obtain ⟨hlow, hhigh⟩ := Bool.and_eq_true_iff.mp hdigit
      exact .inl ⟨of_decide_eq_true hlow, of_decide_eq_true hhigh⟩
  · rw [beq_iff_eq.mp hunderscore]
    decide

def IsPathChar (c : Char) : Prop := isIdentPart c = true ∨ c = ':'

theorem IsPathChar.isDelimiter {c : Char} (h : IsPathChar c) : isDelimiter c = false := by
  rcases h with h | rfl
  · have hrange := toNat_of_isIdentPart h
    have hblank : isBlank c = false := by
      simp only [isBlank, blankRanges, List.any_cons, List.any_nil, Bool.or_false,
        Bool.or_eq_false_iff, Bool.and_eq_false_iff, decide_eq_false_iff_not]
      omega
    have hne : ∀ d : Char, d.toNat = 60 ∨ d.toNat = 62 ∨ d.toNat = 44 → c ≠ d := by
      rintro d hd rfl
      omega
    simp [TypeTag.isDelimiter, hblank, hne '<' (by decide), hne '>' (by decide),
      hne ',' (by decide)]
  · decide

theorem isIdentPart_of_mem {cs : List Char} (h : isIdentifier cs = true) {c : Char} (hc : c ∈ cs) :
    isIdentPart c = true := by
  cases cs with
  | nil => cases hc
  | cons d rest =>
    rw [isIdentifier, Bool.and_eq_true] at h
    rcases List.mem_cons.mp hc with rfl | hc
    · have hstart := h.1
      simp only [isIdentStart, isIdentPart, Char.isAlphanum, Bool.or_eq_true] at hstart ⊢
      exact hstart.imp_left .inl
    · exact List.all_eq_true.mp h.2 c hc

theorem isIdentPart_of_isSome_value? {c : Char} (h : (Hex.value? c).isSome = true) :
    isIdentPart c = true := by
  have hle : ∀ d e : Char, d ≤ e ↔ d.toNat ≤ e.toNat := fun d e => Iff.rfl
  have hrange : 48 ≤ c.toNat ∧ c.toNat ≤ 57 ∨ 97 ≤ c.toNat ∧ c.toNat ≤ 102 ∨
      65 ≤ c.toNat ∧ c.toNat ≤ 70 := by
    unfold Hex.value? at h
    simp only [hle] at h
    split at h
    · rename_i hdigit
      exact .inl hdigit
    split at h
    · rename_i hlower
      exact .inr (.inl hlower)
    split at h
    · rename_i hupper
      exact .inr (.inr hupper)
    · cases h
  refine Bool.or_eq_true_iff.mpr (.inl (Bool.or_eq_true_iff.mpr ?_))
  rcases hrange with ⟨hlow, hhigh⟩ | ⟨hlow, hhigh⟩ | ⟨hlow, hhigh⟩
  · exact .inr (Bool.and_eq_true_iff.mpr ⟨decide_eq_true hlow, decide_eq_true hhigh⟩)
  · have hletter : c.toNat ≤ 122 := by omega
    exact .inl (Bool.or_eq_true_iff.mpr
      (.inr (Bool.and_eq_true_iff.mpr ⟨decide_eq_true hlow, decide_eq_true hletter⟩)))
  · have hletter : c.toNat ≤ 90 := by omega
    exact .inl (Bool.or_eq_true_iff.mpr (.inl (decide_eq_true ⟨hlow, hletter⟩)))

theorem isIdentPart_of_parse {a : List Char} {owner : Address}
    (h : Address.parse (String.ofList a) = .ok owner) (ha : ∀ c ∈ a, isBlank c = false) :
    ∀ c ∈ a, isIdentPart c = true := by
  intro c hc
  rcases Address.isDigit_of_parse h hc (ha c hc) with rfl | rfl | hdigit
  · decide
  · decide
  · exact isIdentPart_of_isSome_value? hdigit

theorem colon_notMem {cs : List Char} (h : ∀ c ∈ cs, isIdentPart c = true) : ':' ∉ cs :=
  fun hc => absurd (h ':' hc) (by decide)

/-! ### Paths -/

/-- The path of a struct: an address in any form that is read, a module and a name. -/
def IsPath (owner : Address) (module name : String) (word : List Char) : Prop :=
  ∃ a, word = a ++ ':' :: ':' :: (module.toList ++ ':' :: ':' :: name.toList) ∧
    Address.parse (String.ofList a) = .ok owner ∧ (∀ c ∈ a, isBlank c = false) ∧
    isIdentifier module.toList = true ∧ isIdentifier name.toList = true

theorem splitColons_of_notMem {cs : List Char} (h : ':' ∉ cs) : splitColons cs = [cs] := by
  induction cs with
  | nil => rfl
  | cons c cs ih =>
    rw [List.mem_cons, not_or] at h
    rw [splitColons, ih h.2]
    rintro _ rfl _
    exact h.1 rfl

theorem splitColons_append {cs : List Char} (h : ':' ∉ cs) (rest : List Char) :
    splitColons (cs ++ ':' :: ':' :: rest) = cs :: splitColons rest := by
  induction cs with
  | nil => rfl
  | cons c cs ih =>
    rw [List.mem_cons, not_or] at h
    rw [List.cons_append, splitColons, ih h.2]
    rintro _ rfl _
    exact h.1 rfl

section

variable {owner : Address} {module name : String} {word : List Char}

theorem IsPath.isPathChar (h : IsPath owner module name word) : ∀ c ∈ word, IsPathChar c := by
  obtain ⟨a, rfl, hparse, ha, hmodule, hname⟩ := h
  intro c hc
  simp only [List.mem_append, List.mem_cons] at hc
  rcases hc with hc | hc | hc | hc | hc | hc | hc
  · exact .inl (isIdentPart_of_parse hparse ha c hc)
  · exact .inr hc
  · exact .inr hc
  · exact .inl (isIdentPart_of_mem hmodule hc)
  · exact .inr hc
  · exact .inr hc
  · exact .inl (isIdentPart_of_mem hname hc)

theorem IsPath.all_not_isDelimiter (h : IsPath owner module name word) :
    word.all (!isDelimiter ·) = true := by
  refine List.all_eq_true.mpr fun c hc => ?_
  rw [(h.isPathChar c hc).isDelimiter, Bool.not_false]

theorem IsPath.colon_mem (h : IsPath owner module name word) : ':' ∈ word := by
  obtain ⟨a, rfl, -⟩ := h
  simp

theorem IsPath.structPath_eq (h : IsPath owner module name word) (offset : Nat) :
    structPath word offset = .ok (owner, module, name) := by
  obtain ⟨a, rfl, hparse, ha, hmodule, hname⟩ := h
  rw [structPath, splitColons_append (colon_notMem (isIdentPart_of_parse hparse ha)),
    splitColons_append (colon_notMem fun _ => isIdentPart_of_mem hmodule),
    splitColons_of_notMem (colon_notMem fun _ => isIdentPart_of_mem hname)]
  simp only [hparse, hmodule, hname, Bool.and_self, if_true, String.ofList_toList]

end

theorem primitive?_of_mem_colon {cs : List Char} (h : ':' ∈ cs) :
    primitive? (String.ofList cs) = none := by
  have hne : ∀ word : String, ':' ∉ word.toList → String.ofList cs ≠ word := by
    rintro _ hword rfl
    rw [String.toList_ofList] at hword
    exact hword h
  simp [primitive?, hne]

/-! ### The grammar -/

def Blank (cs : List Char) : Prop := ∀ c ∈ cs, isBlank c = true

mutual

/-- The texts that stand for a type, from the blanks in front of it to its last character. -/
inductive Spelled : TypeTag → List Char → Prop
  | word {t : TypeTag} {gap : List Char} (hgap : Blank gap) (ht : t.IsPrimitive) :
      Spelled t (gap ++ t.chars)
  | vector {element : TypeTag} {gap before cs after : List Char} (hgap : Blank gap)
      (hbefore : Blank before) (h : Spelled element cs) (hafter : Blank after) :
      Spelled (vector element)
        (gap ++ ("vector".toList ++ (before ++ '<' :: (cs ++ (after ++ ['>'])))))
  | plain {owner : Address} {module name : String} {gap word : List Char} (hgap : Blank gap)
      (hpath : IsPath owner module name word) : Spelled (struct owner module name []) (gap ++ word)
  | generic {owner : Address} {module name : String} {params : List TypeTag}
      {gap word before ds : List Char} (hgap : Blank gap) (hpath : IsPath owner module name word)
      (hbefore : Blank before) (h : SpelledParams params ds) :
      Spelled (struct owner module name params) (gap ++ (word ++ (before ++ '<' :: ds)))

/-- The texts that stand for one or more parameters, up to the closing bracket. -/
inductive SpelledParams : List TypeTag → List Char → Prop
  | last {t : TypeTag} {cs after : List Char} (h : Spelled t cs) (hafter : Blank after) :
      SpelledParams [t] (cs ++ (after ++ ['>']))
  | more {t : TypeTag} {ts : List TypeTag} {cs after ds : List Char} (h : Spelled t cs)
      (hafter : Blank after) (hrest : SpelledParams ts ds) :
      SpelledParams (t :: ts) (cs ++ (after ++ ',' :: ds))

end

/-- A text spells a type, up to blanks at its end. -/
def Spells (t : TypeTag) (input : String) : Prop :=
  ∃ cs after, input.toList = cs ++ after ∧ t.Spelled cs ∧ Blank after

/-! ### Places -/

/-- What stands behind a type: nothing, a comma or a closing bracket. -/
def Ends (rest : List Char) : Prop := ∀ c ∈ rest.head?, c = '>' ∨ c = ','

theorem ends_nil : Ends [] := by simp [Ends]

theorem ends_cons_close (rest : List Char) : Ends ('>' :: rest) := by simp [Ends]

theorem ends_cons_comma (rest : List Char) : Ends (',' :: rest) := by simp [Ends]

theorem Ends.isDelimiter {rest : List Char} (h : Ends rest) :
    ∀ c ∈ rest.head?, isDelimiter c = true := by
  intro c hc
  rcases h c hc with rfl | rfl <;> decide

theorem Ends.isBlank {rest : List Char} (h : Ends rest) :
    ∀ c ∈ rest.head?, isBlank c = false := by
  intro c hc
  rcases h c hc with rfl | rfl <;> decide

theorem isDelimiter_open (rest : List Char) : ∀ c ∈ ('<' :: rest).head?, isDelimiter c = true := by
  simp
  decide

theorem isBlank_open (rest : List Char) : ∀ c ∈ ('<' :: rest).head?, isBlank c = false := by
  simp
  decide

theorem advance_append (offset : Nat) (front rest : List Char) :
    ∃ offset', Place.advance ⟨offset, front ++ rest⟩ front.length = ⟨offset', rest⟩ :=
  ⟨_, by rw [Place.advance, List.drop_left]⟩

theorem skipBlank_append {lead rest : List Char} (hlead : Blank lead)
    (hrest : ∀ c ∈ rest.head?, isBlank c = false) (offset : Nat) :
    ∃ offset', Place.skipBlank ⟨offset, lead ++ rest⟩ = ⟨offset', rest⟩ := by
  rw [Place.skipBlank, List.takeWhile_append_of_head? hlead hrest]
  exact advance_append offset lead rest

theorem skipBlank_eq_self {offset : Nat} {rest : List Char}
    (hrest : ∀ c ∈ rest.head?, isBlank c = false) :
    Place.skipBlank ⟨offset, rest⟩ = ⟨offset, rest⟩ := by
  have htake : rest.takeWhile isBlank = [] :=
    List.takeWhile_append_of_head? (List.forall_mem_nil _) hrest
  rw [Place.skipBlank, htake]
  rfl

theorem isDelimiter_of_blank {gap rest : List Char} (hgap : Blank gap)
    (hrest : ∀ c ∈ rest.head?, isDelimiter c = true) :
    ∀ c ∈ (gap ++ rest).head?, isDelimiter c = true := by
  cases gap with
  | nil => exact hrest
  | cons d gap =>
    intro c hc
    obtain rfl := Option.some.inj hc
    simp [isDelimiter, hgap d List.mem_cons_self]

theorem expect_of_skipBlank {p : Place} {symbol : Char} {offset : Nat} {rest : List Char}
    (h : p.skipBlank = ⟨offset, symbol :: rest⟩) :
    ∃ offset', expect symbol p = .ok ((), ⟨offset', rest⟩) := by
  rw [expect, h]
  simp only [if_true]
  exact ⟨_, rfl⟩

theorem readPath_append {lead word rest : List Char} (hlead : Blank lead) (hne : word ≠ [])
    (hword : word.all (!isDelimiter ·) = true) (hrest : ∀ c ∈ rest.head?, isDelimiter c = true)
    (offset : Nat) :
    ∃ offset', readPath ⟨offset, lead ++ (word ++ rest)⟩ = (word, ⟨offset', rest⟩) := by
  have hhead : ∀ c ∈ (word ++ rest).head?, isBlank c = false := by
    intro c hc
    rw [List.head?_append_of_ne_nil _ hne] at hc
    have hdelimiter := List.all_eq_true.mp hword c (List.mem_of_mem_head? hc)
    simp only [TypeTag.isDelimiter, Bool.not_eq_true', Bool.or_eq_false_iff] at hdelimiter
    exact hdelimiter.2
  obtain ⟨offset₁, hskip⟩ := skipBlank_append hlead hhead offset
  obtain ⟨offset₂, hadvance⟩ := advance_append offset₁ word rest
  have htake : (word ++ rest).takeWhile (!TypeTag.isDelimiter ·) = word :=
    List.takeWhile_append_of_head? (List.all_eq_true.mp hword) fun c hc => by simp [hrest c hc]
  refine ⟨offset₂, ?_⟩
  rw [readPath, hskip]
  simp only [htake, hadvance]

theorem IsPath.readPath_eq {owner : Address} {module name : String} {word gap rest : List Char}
    (h : IsPath owner module name word) (hgap : Blank gap)
    (hrest : ∀ c ∈ rest.head?, isDelimiter c = true) (offset : Nat) :
    ∃ offset', readPath ⟨offset, gap ++ (word ++ rest)⟩ = (word, ⟨offset', rest⟩) :=
  readPath_append hgap (List.ne_nil_of_mem h.colon_mem) h.all_not_isDelimiter hrest offset

/-! ### Reading types -/

section

variable {fuel offset : Nat} {p q q' q'' r : Place} {word rest : List Char} {t : TypeTag}
  {owner : Address} {module name : String}

theorem readType_primitive (hpath : readPath p = (word, q)) (hne : word ≠ [])
    (ht : primitive? (String.ofList word) = some t) : readType (fuel + 1) p = .ok (t, q) := by
  rw [readType, hpath]
  simp only [hne, if_false, ht]

theorem readType_vector (hpath : readPath p = ("vector".toList, q)) (hopen : expect '<' q = .ok ((), q'))
    (helement : readType fuel q' = .ok (t, q'')) (hclose : expect '>' q'' = .ok ((), r)) :
    readType (fuel + 1) p = .ok (vector t, r) := by
  have hprimitive : primitive? (String.ofList "vector".toList) = none := by decide
  rw [readType, hpath]
  simp only [hprimitive, hopen, helement, hclose, if_true]
  simp

theorem ne_vector_of_mem_colon (hcolon : ':' ∈ word) : word ≠ "vector".toList := by
  rintro rfl
  revert hcolon
  decide

theorem readType_plain (hpath : readPath p = (word, q)) (hcolon : ':' ∈ word)
    (hstruct : structPath word q.offset = .ok (owner, module, name))
    (hrest : ∀ c ∈ q.skipBlank.rest.head?, c ≠ '<') :
    readType (fuel + 1) p = .ok (struct owner module name [], q.skipBlank) := by
  rw [readType, hpath]
  simp only [List.ne_nil_of_mem hcolon, ne_vector_of_mem_colon hcolon, if_false,
    primitive?_of_mem_colon hcolon, hstruct]
  split
  · rename_i hopen
    exact absurd rfl (hrest '<' (by rw [hopen]; rfl))
  · rfl

theorem readType_generic {params : List TypeTag} (hpath : readPath p = (word, q)) (hcolon : ':' ∈ word)
    (hstruct : structPath word q.offset = .ok (owner, module, name))
    (hopen : q.skipBlank = ⟨offset, '<' :: rest⟩)
    (hparams : readParams fuel [] ⟨offset + 1, rest⟩ = .ok (params, q')) :
    readType (fuel + 1) p = .ok (struct owner module name params, q') := by
  have hadvance : Place.advance ⟨offset, '<' :: rest⟩ 1 = ⟨offset + 1, rest⟩ := rfl
  rw [readType, hpath]
  simp only [List.ne_nil_of_mem hcolon, ne_vector_of_mem_colon hcolon, if_false,
    primitive?_of_mem_colon hcolon, hstruct, hopen, hadvance, hparams]

end

/-! ### What is spelled is read -/

/-- Every spelling of a type is read as that type wherever it stands, and what is skipped then leads to the
end behind it. Each bracket and each parameter that is read takes some of the text, which is why its length
is fuel enough. -/
def IsRead (t : TypeTag) : Prop :=
  ∀ cs, Spelled t cs → ∀ fuel offset gap rest, cs.length ≤ fuel → Blank gap → Ends rest →
    ∃ p offset', readType fuel ⟨offset, cs ++ (gap ++ rest)⟩ = .ok (t, p) ∧
      p.skipBlank = ⟨offset', rest⟩

theorem isRead_primitive {t : TypeTag} (ht : t.IsPrimitive) : t.IsRead := by
  have hword : t.chars ≠ [] ∧ t.chars.all (!isDelimiter ·) = true ∧
      primitive? (String.ofList t.chars) = some t := by
    cases t
    case vector => exact ht.elim
    case struct => exact ht.elim
    all_goals decide
  obtain ⟨hne, hword, hprimitive⟩ := hword
  intro cs h fuel offset gap rest hfuel hgap hrest
  cases h with
  | @word _ lead hlead =>
    have hpos := List.length_pos_of_ne_nil hne
    rw [List.length_append] at hfuel
    obtain ⟨fuel, rfl⟩ : ∃ n, fuel = n + 1 := ⟨fuel - 1, by omega⟩
    obtain ⟨offset₁, hpath⟩ := readPath_append hlead hne hword
      (isDelimiter_of_blank hgap hrest.isDelimiter) offset
    obtain ⟨offset₂, hskip⟩ := skipBlank_append hgap hrest.isBlank offset₁
    rw [List.append_assoc]
    exact ⟨_, offset₂, readType_primitive hpath hne hprimitive, hskip⟩
  | vector => exact ht.elim
  | plain => exact ht.elim
  | generic => exact ht.elim

theorem IsRead.vector {element : TypeTag} (helement : element.IsRead) : (vector element).IsRead := by
  intro cs h fuel offset gap rest hfuel hgap hrest
  cases h with
  | word _ ht => exact ht.elim
  | @vector _ lead before cs after hlead hbefore h hafter =>
    simp only [List.length_append, List.length_cons] at hfuel
    obtain ⟨fuel, rfl⟩ : ∃ n, fuel = n + 1 := ⟨fuel - 1, by omega⟩
    have hword : "vector".toList.all (!isDelimiter ·) = true := by decide
    obtain ⟨_, hpath⟩ := readPath_append hlead (by decide) hword (isDelimiter_of_blank hbefore
      (isDelimiter_open (cs ++ (after ++ '>' :: (gap ++ rest))))) offset
    obtain ⟨_, hskip⟩ := skipBlank_append hbefore
      (isBlank_open (cs ++ (after ++ '>' :: (gap ++ rest)))) _
    obtain ⟨_, hopen⟩ := expect_of_skipBlank hskip
    obtain ⟨p, _, hread, hskip'⟩ := helement cs h fuel _ after ('>' :: (gap ++ rest)) (by omega) hafter
      (ends_cons_close _)
    obtain ⟨_, hclose⟩ := expect_of_skipBlank hskip'
    obtain ⟨offset', hend⟩ := skipBlank_append hgap hrest.isBlank _
    refine ⟨_, offset', ?_, hend⟩
    simp only [List.append_assoc, List.cons_append, List.nil_append]
    exact readType_vector hpath hopen hread hclose

theorem readParams_of_spelled {ts : List TypeTag} (hts : ∀ t ∈ ts, t.IsRead) :
    ∀ ds, SpelledParams ts ds → ∀ fuel acc offset rest, ds.length ≤ fuel →
      ∃ offset', readParams fuel acc ⟨offset, ds ++ rest⟩ = .ok (acc.reverse ++ ts, ⟨offset', rest⟩) := by
  induction ts with
  | nil => exact nofun
  | cons t ts ih =>
    obtain ⟨ht, hts⟩ := List.forall_mem_cons.mp hts
    intro ds h fuel acc offset rest hfuel
    cases h with
    | @last _ cs after h hafter =>
      simp only [List.length_append, List.length_singleton] at hfuel
      obtain ⟨fuel, rfl⟩ : ∃ n, fuel = n + 1 := ⟨fuel - 1, by omega⟩
      obtain ⟨p, _, hread, hskip⟩ := ht cs h fuel offset after ('>' :: rest) (by omega) hafter
        (ends_cons_close rest)
      rw [List.append_assoc, List.append_assoc, List.singleton_append, readParams, hread]
      simp only [hskip]
      exact ⟨_, by rw [List.reverse_cons]; rfl⟩
    | @more _ _ cs after ds h hafter hrest =>
      simp only [List.length_append, List.length_cons] at hfuel
      obtain ⟨fuel, rfl⟩ : ∃ n, fuel = n + 1 := ⟨fuel - 1, by omega⟩
      obtain ⟨p, offset₁, hread, hskip⟩ := ht cs h fuel offset after (',' :: (ds ++ rest)) (by omega)
        hafter (ends_cons_comma _)
      obtain ⟨offset₂, hmore⟩ := ih hts ds hrest fuel (t :: acc) (offset₁ + 1) rest (by omega)
      refine ⟨offset₂, ?_⟩
      rw [List.append_assoc, List.append_assoc, List.cons_append, readParams, hread]
      simp only [hskip]
      rw [List.reverse_cons, List.append_assoc, List.singleton_append] at hmore
      exact hmore

theorem IsRead.struct {owner : Address} {module name : String} {params : List TypeTag}
    (hparams : ∀ p ∈ params, p.IsRead) : (struct owner module name params).IsRead := by
  intro cs h fuel offset gap rest hfuel hgap hrest
  cases h with
  | word _ ht => exact ht.elim
  | @plain _ _ _ lead word hlead hpath =>
    have hpos := List.length_pos_of_mem hpath.colon_mem
    rw [List.length_append] at hfuel
    obtain ⟨fuel, rfl⟩ : ∃ n, fuel = n + 1 := ⟨fuel - 1, by omega⟩
    obtain ⟨offset₁, hread⟩ := hpath.readPath_eq hlead
      (isDelimiter_of_blank hgap hrest.isDelimiter) offset
    obtain ⟨offset₂, hskip⟩ := skipBlank_append hgap hrest.isBlank offset₁
    rw [List.append_assoc]
    refine ⟨_, offset₂, readType_plain hread hpath.colon_mem (hpath.structPath_eq _) ?_, ?_⟩
    · rw [hskip]
      rintro c hc rfl
      rcases hrest '<' hc with h | h <;> cases h
    · rw [hskip]
      exact skipBlank_eq_self hrest.isBlank
  | @generic _ _ _ _ lead word before ds hlead hpath hbefore h =>
    simp only [List.length_append, List.length_cons] at hfuel
    obtain ⟨fuel, rfl⟩ : ∃ n, fuel = n + 1 := ⟨fuel - 1, by omega⟩
    obtain ⟨offset₁, hread⟩ := hpath.readPath_eq hlead
      (isDelimiter_of_blank hbefore (isDelimiter_open (ds ++ (gap ++ rest)))) offset
    obtain ⟨offset₂, hskip⟩ := skipBlank_append hbefore
      (isBlank_open (ds ++ (gap ++ rest))) offset₁
    obtain ⟨offset₃, hmore⟩ := readParams_of_spelled hparams ds h fuel [] (offset₂ + 1) (gap ++ rest)
      (by omega)
    obtain ⟨offset₄, hend⟩ := skipBlank_append hgap hrest.isBlank offset₃
    refine ⟨_, offset₄, ?_, hend⟩
    simp only [List.append_assoc, List.cons_append]
    exact readType_generic hread hpath.colon_mem (hpath.structPath_eq _) hskip hmore

theorem isRead (t : TypeTag) : t.IsRead := by
  induction t using byParts with
  | primitive t ht => exact isRead_primitive ht
  | vector element ih => exact ih.vector
  | struct owner module name params ih => exact .struct ih

/-- **What spells a type is parsed as that type.** -/
theorem parse_of_spells {t : TypeTag} {input : String} (h : Spells t input) : parse input = .ok t := by
  obtain ⟨cs, after, hinput, hspelled, hafter⟩ := h
  obtain ⟨p, offset', hread, hskip⟩ := isRead t cs hspelled (input.toList.length + 1) 0 after []
    (by rw [hinput, List.length_append]; omega) hafter ends_nil
  rw [List.append_nil, ← hinput] at hread
  rw [parse]
  simp only [hread, hskip, if_true]

end ObjectLedger.TypeTag
