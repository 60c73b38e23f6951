import ObjectLedger.Proofs.TypeTag.Spelling

/-!
# Types read back from text

The canonical text of a type spells it, provided that its structs are named by identifiers. So it is read
as that type.
-/

namespace ObjectLedger.TypeTag

/-! ### Canonical paths -/

theorem IsPathChar.ne_at {c : Char} (h : IsPathChar c) : c ≠ '@' := by
  rcases h with h | rfl
  · rintro rfl
    cases h
  · decide

def path (owner : Address) (module name : String) : List Char :=
  owner.chars ++ ':' :: ':' :: (module.toList ++ ':' :: ':' :: name.toList)

theorem path_eq_append (owner : Address) (module name : String) :
    owner.chars ++ "::".toList ++ module.toList ++ "::".toList ++ name.toList =
      path owner module name := by
  simp [path]

theorem chars_struct_nil (owner : Address) (module name : String) :
    (struct owner module name []).chars = path owner module name :=
  (List.append_nil _).trans (path_eq_append owner module name)

theorem chars_struct_cons (owner : Address) (module name : String) (p : TypeTag)
    (ps : List TypeTag) :
    (struct owner module name (p :: ps)).chars =
      path owner module name ++ '<' :: paramChars (p :: ps) :=
  congrArg (· ++ '<' :: paramChars (p :: ps)) (path_eq_append owner module name)

theorem isPath_path {owner : Address} {module name : String}
    (hmodule : isIdentifier module.toList = true) (hname : isIdentifier name.toList = true) :
    IsPath owner module name (path owner module name) :=
  ⟨owner.chars, rfl, Address.parse_text owner, fun _ => Address.isBlank_of_mem_chars, hmodule, hname⟩

/-! ### The canonical text is a spelling -/

theorem Blank.append {gap cs : List Char} (hgap : Blank gap) (hcs : Blank cs) : Blank (gap ++ cs) :=
  fun c hc => (List.mem_append.mp hc).elim (hgap c) (hcs c)

theorem blank_nil : Blank [] := List.forall_mem_nil _

theorem Spelled.behindBlank {t : TypeTag} {gap cs : List Char} (hgap : Blank gap) (h : Spelled t cs) :
    Spelled t (gap ++ cs) := by
  cases h with
  | word hlead ht =>
    rw [← List.append_assoc]
    exact .word (hgap.append hlead) ht
  | vector hlead hbefore h hafter =>
    rw [← List.append_assoc]
    exact .vector (hgap.append hlead) hbefore h hafter
  | plain hlead hpath =>
    rw [← List.append_assoc]
    exact .plain (hgap.append hlead) hpath
  | generic hlead hpath hbefore h =>
    rw [← List.append_assoc]
    exact .generic (hgap.append hlead) hpath hbefore h

theorem SpelledParams.behindBlank {ts : List TypeTag} {gap ds : List Char} (hgap : Blank gap)
    (h : SpelledParams ts ds) : SpelledParams ts (gap ++ ds) := by
  cases h with
  | last h hafter =>
    rw [← List.append_assoc]
    exact .last (h.behindBlank hgap) hafter
  | more h hafter hrest =>
    rw [← List.append_assoc]
    exact .more (h.behindBlank hgap) hafter hrest

theorem spelledParams_paramChars {ps : List TypeTag} (h : ∀ p ∈ ps, Spelled p p.chars) (hne : ps ≠ []) :
    SpelledParams ps (paramChars ps) := by
  induction ps with
  | nil => exact absurd rfl hne
  | cons p ps ih =>
    obtain ⟨hp, hps⟩ := List.forall_mem_cons.mp h
    cases ps with
    | nil => exact .last hp blank_nil
    | cons q qs =>
      have hspace : Blank [' '] := List.forall_mem_singleton.mpr (by decide)
      exact .more hp blank_nil ((ih hps (List.cons_ne_nil q qs)).behindBlank hspace)

theorem spelled_chars {t : TypeTag} (h : t.HasIdentifiers) : Spelled t t.chars := by
  induction t using byParts with
  | primitive t ht => exact .word blank_nil ht
  | vector element ih =>
    have hchars : (vector element).chars = "vector".toList ++ '<' :: (element.chars ++ ['>']) := rfl
    rw [hchars]
    exact .vector blank_nil blank_nil (ih h) blank_nil
  | struct owner module name params ih =>
    have hpath : IsPath owner module name (path owner module name) := isPath_path h.1.1 h.1.2
    cases params with
    | nil =>
      rw [chars_struct_nil]
      exact @Spelled.plain owner module name [] _ blank_nil hpath
    | cons p ps =>
      rw [chars_struct_cons]
      refine .generic blank_nil hpath blank_nil (spelledParams_paramChars (fun q hq => ?_) ?_)
      · exact ih q hq (h.2.of_mem hq)
      · exact List.cons_ne_nil p ps

/-- **A type is read back from its canonical text**, provided that its structs are named by
identifiers. -/
theorem parse_text {t : TypeTag} (h : t.HasIdentifiers) : parse t.text = .ok t := by
  refine parse_of_spells ⟨t.chars, [], ?_, spelled_chars h, blank_nil⟩
  rw [text, String.toList_ofList, List.append_nil]

/-! ### No named package -/

theorem notMem_paramChars {ps : List TypeTag} (h : ∀ p ∈ ps, '@' ∉ p.chars) :
    '@' ∉ paramChars ps := by
  induction ps with
  | nil => decide
  | cons p ps ih =>
    have hp := h p List.mem_cons_self
    have hps := ih fun q hq => h q (List.mem_cons_of_mem _ hq)
    cases ps with
    | nil =>
      rw [show paramChars [p] = p.chars ++ ['>'] from rfl]
      simp [hp]
    | cons q qs =>
      rw [show paramChars (p :: q :: qs) = p.chars ++ ',' :: ' ' :: paramChars (q :: qs) from rfl]
      simp [hp, hps]

theorem at_notMem_chars {t : TypeTag} (h : t.HasIdentifiers) : '@' ∉ t.chars := by
  induction t using byParts with
  | primitive t ht =>
    cases t
    case vector => exact ht.elim
    case struct => exact ht.elim
    all_goals decide
  | vector element ih =>
    rw [show (vector element).chars = "vector<".toList ++ element.chars ++ ['>'] from rfl]
    simp [ih h]
  | struct owner module name params ih =>
    have hpath : '@' ∉ path owner module name := fun hmem =>
      ((isPath_path h.1.1 h.1.2).isPathChar _ hmem).ne_at rfl
    cases params with
    | nil => rwa [chars_struct_nil]
    | cons p ps =>
      have hparams := notMem_paramChars fun q hq => ih q hq (h.2.of_mem hq)
      rw [chars_struct_cons, List.mem_append, List.mem_cons, not_or, not_or]
      exact ⟨hpath, by decide, hparams⟩

theorem contains_at_text {t : TypeTag} (h : t.HasIdentifiers) : t.text.contains '@' = false := by
  rw [String.contains_char_eq, text, String.toList_ofList, decide_eq_false_iff_not]
  exact at_notMem_chars h

end ObjectLedger.TypeTag
