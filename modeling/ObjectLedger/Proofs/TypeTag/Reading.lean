import ObjectLedger.Proofs.Prelude
import ObjectLedger.Proofs.TypeTag.Extent
import ObjectLedger.Proofs.TypeTag.Text

/-!
# What is read is spelled

The converse of reading what is spelled: whatever the readers take off the front of a text is a spelling of
what they give. So the texts that are parsed are those of the grammar, and the canonical text of a type is a
normal form.
-/

namespace ObjectLedger.TypeTag

/-! ### What is taken off the front -/

theorem rest_eq_takeWhile_append (f : Char → Bool) (p : Place) :
    p.rest = p.rest.takeWhile f ++ (p.advance (p.rest.takeWhile f).length).rest := by
  have htake := List.prefix_iff_eq_take.mp (p.rest.takeWhile_prefix f)
  have hsplit := List.take_append_drop (p.rest.takeWhile f).length p.rest
  rw [← htake] at hsplit
  exact hsplit.symm

theorem rest_eq_blank_append (p : Place) : ∃ gap, Blank gap ∧ p.rest = gap ++ p.skipBlank.rest :=
  ⟨_, fun _ => List.mem_takeWhile_imp, rest_eq_takeWhile_append isBlank p⟩

theorem rest_advance_one {p : Place} {c : Char} {rest : List Char} (h : p.rest = c :: rest) :
    (p.advance 1).rest = rest := by
  rw [Place.advance, h]
  rfl

theorem rest_eq_of_expect {symbol : Char} {p p' : Place} (h : expect symbol p = .ok ((), p')) :
    ∃ gap, Blank gap ∧ p.rest = gap ++ symbol :: p'.rest := by
  obtain ⟨gap, hgap, hrest⟩ := rest_eq_blank_append p
  refine ⟨gap, hgap, ?_⟩
  rw [expect] at h
  split at h
  · rename_i c rest hc
    split at h
    · rename_i hsymbol
      cases h
      rw [hrest, rest_advance_one hc, hc, hsymbol]
    · cases h
  · cases h

theorem rest_eq_of_readPath {p q : Place} {word : List Char} (h : readPath p = (word, q)) :
    ∃ gap, Blank gap ∧ p.rest = gap ++ (word ++ q.rest) ∧ ∀ c ∈ word, isBlank c = false := by
  obtain ⟨gap, hgap, hrest⟩ := rest_eq_blank_append p
  refine ⟨gap, hgap, ?_⟩
  rw [readPath] at h
  cases h
  refine ⟨?_, fun c hc => ?_⟩
  · rw [← rest_eq_takeWhile_append, ← hrest]
  · have hdelimiter := List.mem_takeWhile_imp hc
    simp only [isDelimiter, Bool.not_eq_true', Bool.or_eq_false_iff] at hdelimiter
    exact hdelimiter.2

/-! ### Paths -/

theorem splitColons_ne_nil (cs : List Char) : splitColons cs ≠ [] := by
  induction cs using splitColons.induct with
  | case1 => exact List.cons_ne_nil _ _
  | case2 rest ih => exact List.cons_ne_nil _ _
  | case3 c rest hcolons hnone ih => exact absurd hnone ih
  | case4 c rest hcolons first pieces hpieces ih =>
    rw [splitColons, hpieces]
    · exact List.cons_ne_nil _ _
    · exact hcolons

theorem intercalate_splitColons (cs : List Char) : [':', ':'].intercalate (splitColons cs) = cs := by
  induction cs using splitColons.induct with
  | case1 => rfl
  | case2 rest ih =>
    obtain ⟨piece, pieces, hpieces⟩ := List.exists_cons_of_ne_nil (splitColons_ne_nil rest)
    rw [hpieces] at ih
    rw [splitColons, hpieces, ← ih]
    rfl
  | case3 c rest hcolons hnone ih => exact absurd hnone (splitColons_ne_nil rest)
  | case4 c rest hcolons first pieces hpieces ih =>
    rw [hpieces] at ih
    rw [splitColons, hpieces, ← ih]
    · cases pieces <;> rfl
    · exact hcolons

theorem isPath_of_structPath {word : List Char} {offset : Nat} {owner : Address} {module name : String}
    (h : structPath word offset = .ok (owner, module, name)) (hword : ∀ c ∈ word, isBlank c = false) :
    IsPath owner module name word := by
  have hjoin := intercalate_splitColons word
  rw [structPath] at h
  split at h
  · rename_i a m n hsplit
    have hpath : word = a ++ ':' :: ':' :: (m ++ ':' :: ':' :: n) := by
      rw [hsplit] at hjoin
      simp [← hjoin, List.intercalate]
    split at h
    · rename_i owner' howner
      split at h
      · rename_i hidentifiers
        cases h
        rw [Bool.and_eq_true] at hidentifiers
        simp only [IsPath, String.toList_ofList]
        refine ⟨a, hpath, howner, fun c hc => hword c ?_, hidentifiers⟩
        rw [hpath]
        exact List.mem_append_left _ hc
      · cases h
    · cases h
  · cases h

/-! ### Ways in which types are read -/

theorem names_of_ite {word name : String} {t : TypeTag} {rest : Option TypeTag}
    (ht : t.IsPrimitive ∧ t.chars = name.toList)
    (hrest : ∀ t' ∈ rest, t'.IsPrimitive ∧ t'.chars = word.toList) :
    ∀ t' ∈ (if word = name then some t else rest), t'.IsPrimitive ∧ t'.chars = word.toList := by
  split
  · rename_i hword
    rintro _ ⟨⟩
    rwa [hword]
  · exact hrest

theorem of_primitive? {word : String} {t : TypeTag} (h : primitive? word = some t) :
    t.IsPrimitive ∧ t.chars = word.toList := by
  revert t
  unfold primitive?
  iterate 9
    apply names_of_ite
    · exact ⟨trivial, rfl⟩
  exact nofun

section

variable {fuel : Nat} {p p' : Place} {t : TypeTag}

/-- The ways in which a type is read: a word, a vector, and a struct without or with parameters. -/
theorem readType_eq_ok (h : readType (fuel + 1) p = .ok (t, p')) :
    ∃ word q, readPath p = (word, q) ∧
      ((t.IsPrimitive ∧ t.chars = word ∧ p' = q) ∨
        (word = "vector".toList ∧ ∃ element q₁ q₂, expect '<' q = .ok ((), q₁) ∧
          readType fuel q₁ = .ok (element, q₂) ∧ expect '>' q₂ = .ok ((), p') ∧ t = vector element) ∨
        ∃ owner module name params, structPath word q.offset = .ok (owner, module, name) ∧
          (params = [] ∧ p' = q.skipBlank ∨ ∃ rest, q.skipBlank.rest = '<' :: rest ∧
            readParams fuel [] (q.skipBlank.advance 1) = .ok (params, p')) ∧
          t = struct owner module name params) := by
  rw [readType] at h
  rcases hpath : readPath p with ⟨word, q⟩
  rw [hpath] at h
  refine ⟨word, q, rfl, ?_⟩
  simp only at h
  split at h
  · cases h
  split at h
  · rename_i t' ht
    cases h
    obtain ⟨hprimitive, hchars⟩ := of_primitive? ht
    rw [String.toList_ofList] at hchars
    exact .inl ⟨hprimitive, hchars, rfl⟩
  split at h
  · rename_i hword
    refine .inr (.inl ⟨hword, ?_⟩)
    split at h
    · cases h
    rename_i q₁ hopen
    split at h
    · cases h
    rename_i element q₂ helement
    split at h
    · cases h
    rename_i q₃ hclose
    cases h
    exact ⟨element, q₁, q₂, hopen, helement, hclose, rfl⟩
  · refine .inr (.inr ?_)
    split at h
    · cases h
    rename_i owner module name hstruct
    split at h
    · rename_i rest hrest
      split at h
      · cases h
      rename_i params q₁ hparams
      cases h
      exact ⟨owner, module, name, params, hstruct, .inr ⟨rest, hrest, hparams⟩, rfl⟩
    · cases h
      exact ⟨owner, module, name, [], hstruct, .inl ⟨rfl, rfl⟩, rfl⟩

theorem readParams_eq_ok {acc ps : List TypeTag} (h : readParams (fuel + 1) acc p = .ok (ps, p')) :
    ∃ t q rest, readType fuel p = .ok (t, q) ∧
      (q.skipBlank.rest = ',' :: rest ∧ readParams fuel (t :: acc) (q.skipBlank.advance 1) = .ok (ps, p') ∨
        q.skipBlank.rest = '>' :: rest ∧ ps = (t :: acc).reverse ∧ p' = q.skipBlank.advance 1) := by
  rw [readParams] at h
  split at h
  · cases h
  rename_i t q ht
  simp only at h
  split at h
  · rename_i rest hrest
    exact ⟨t, q, rest, ht, .inl ⟨hrest, h⟩⟩
  · rename_i rest hrest
    cases h
    exact ⟨t, q, rest, ht, .inr ⟨hrest, rfl, rfl⟩⟩
  · cases h

end

/-! ### Types -/

/-- A reader of types takes a spelling off the front, and no more than blanks behind it. -/
def TypeSpelled (fuel : Nat) : Prop :=
  ∀ ⦃p p' t⦄, readType fuel p = .ok (t, p') →
    ∃ cs gap, Spelled t cs ∧ Blank gap ∧ p.rest = cs ++ (gap ++ p'.rest)

/-- A reader of parameters goes on behind those read so far, and takes the closing bracket off too. -/
def ParamsSpelled (fuel : Nat) : Prop :=
  ∀ ⦃acc p p' ps⦄, readParams fuel acc p = .ok (ps, p') →
    ∃ ts ds, ps = acc.reverse ++ ts ∧ SpelledParams ts ds ∧ p.rest = ds ++ p'.rest

theorem TypeSpelled.succ {fuel : Nat} (htype : TypeSpelled fuel) (hparams : ParamsSpelled fuel) :
    TypeSpelled (fuel + 1) := by
  intro p p' t h
  obtain ⟨word, q, hpath, hcase⟩ := readType_eq_ok h
  obtain ⟨gap, hgap, hrest, hword⟩ := rest_eq_of_readPath hpath
  rcases hcase with ⟨ht, rfl, rfl⟩ | ⟨rfl, element, q₁, q₂, hopen, helement, hclose, rfl⟩ |
    ⟨owner, module, name, params, hstruct, hread, rfl⟩
  · refine ⟨_, [], .word hgap ht, blank_nil, ?_⟩
    rw [hrest, List.append_assoc]
    rfl
  · obtain ⟨before, hbefore, hopen⟩ := rest_eq_of_expect hopen
    obtain ⟨cs, after, hcs, hafter, helement⟩ := htype helement
    obtain ⟨behind, hbehind, hclose⟩ := rest_eq_of_expect hclose
    refine ⟨_, [], .vector hgap hbefore hcs (hafter.append hbehind), blank_nil, ?_⟩
    simp [hrest, hopen, helement, hclose]
  · have hpath := isPath_of_structPath hstruct hword
    obtain ⟨before, hbefore, hskip⟩ := rest_eq_blank_append q
    rcases hread with ⟨rfl, rfl⟩ | ⟨rest, hopen, hread⟩
    · refine ⟨_, before, .plain hgap hpath, hbefore, ?_⟩
      rw [hrest, hskip, List.append_assoc]
    · obtain ⟨ts, ds, rfl, hds, hread⟩ := hparams hread
      rw [rest_advance_one hopen] at hread
      refine ⟨_, [], .generic hgap hpath hbefore hds, blank_nil, ?_⟩
      simp [hrest, hskip, hopen, hread]

theorem ParamsSpelled.succ {fuel : Nat} (htype : TypeSpelled fuel) (hparams : ParamsSpelled fuel) :
    ParamsSpelled (fuel + 1) := by
  intro acc p p' ps h
  obtain ⟨t, q, rest, ht, hcase⟩ := readParams_eq_ok h
  obtain ⟨cs, gap, hcs, hgap, hrest⟩ := htype ht
  obtain ⟨gap', hgap', hskip⟩ := rest_eq_blank_append q
  rcases hcase with ⟨hcomma, hmore⟩ | ⟨hclose, rfl, rfl⟩
  · obtain ⟨ts, ds, rfl, hds, hmore⟩ := hparams hmore
    rw [rest_advance_one hcomma] at hmore
    refine ⟨t :: ts, _, ?_, .more hcs (hgap.append hgap') hds, ?_⟩
    · rw [List.reverse_cons, List.append_assoc, List.singleton_append]
    · simp [hrest, hskip, hcomma, hmore]
  · rw [rest_advance_one hclose]
    refine ⟨[t], _, List.reverse_cons, .last hcs (hgap.append hgap'), ?_⟩
    simp [hrest, hskip, hclose]

theorem spelled_of_read (fuel : Nat) : TypeSpelled fuel ∧ ParamsSpelled fuel := by
  -- The two readers call each other with one step of fuel less, so the two facts go together.
  induction fuel with
  | zero =>
    constructor
    · intro p p' t h
      cases h
    · intro acc p p' ps h
      cases h
  | succ fuel ih =>
    obtain ⟨htype, hparams⟩ := ih
    exact ⟨htype.succ hparams, .succ htype hparams⟩

/-! ### Parsing -/

theorem spells_of_parse {input : String} {t : TypeTag} (h : parse input = .ok t) : Spells t input := by
  rw [parse] at h
  split at h
  · cases h
  rename_i t' p hread
  simp only at h
  split at h
  · rename_i hend
    cases h
    obtain ⟨cs, gap, hcs, hgap, hinput⟩ := (spelled_of_read _).1 hread
    obtain ⟨gap', hgap', hskip⟩ := rest_eq_blank_append p
    refine ⟨cs, gap ++ gap', ?_, hcs, hgap.append hgap'⟩
    rw [hskip, hend, List.append_nil] at hinput
    exact hinput
  · cases h

theorem hasIdentifiers_of_parse {input : String} {t : TypeTag} (h : parse input = .ok t) :
    t.HasIdentifiers :=
  hasIdentifiers_of_spells (spells_of_parse h)

theorem short_of_parse {input : String} {t : TypeTag} (h : parse input = .ok t)
    (hinput : (utf8Bytes input).length < 2 ^ 32) : t.Short :=
  short_of_spells (spells_of_parse h) hinput

theorem parse_eq_ok_iff {input : String} {t : TypeTag} : parse input = .ok t ↔ Spells t input :=
  ⟨spells_of_parse, parse_of_spells⟩

theorem normalize_eq_ok_iff {input output : String} :
    normalize input = .ok output ↔ ∃ t, Spells t input ∧ t.text = output := by
  rw [normalize, Except.map_eq_ok]
  simp only [parse_eq_ok_iff]

/-- **The texts that are parsed as a type are its spellings**, its canonical text among them if its structs
are named by identifiers; and what is normalized once is not changed by normalizing it again. -/
theorem spellings_of_types :
    (∀ input t, parse input = .ok t ↔ Spells t input) ∧
      (∀ t : TypeTag, t.HasIdentifiers → parse t.text = .ok t) ∧
      ∀ input output, normalize input = .ok output → normalize output = .ok output := by
  refine ⟨fun input t => parse_eq_ok_iff, fun t => parse_text, fun input output h => ?_⟩
  obtain ⟨t, hspells, rfl⟩ := normalize_eq_ok_iff.mp h
  have hparse : parse t.text = .ok t := parse_text (hasIdentifiers_of_parse (parse_of_spells hspells))
  exact normalize_eq_ok_iff.mpr ⟨t, parse_eq_ok_iff.mp hparse, rfl⟩

end ObjectLedger.TypeTag
