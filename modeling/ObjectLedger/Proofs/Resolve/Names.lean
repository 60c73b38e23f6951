import ObjectLedger.Proofs.Resolve.Peers
import ObjectLedger.Proofs.Transaction.References
import ObjectLedger.Resolve.Names

/-!
# Resolving names

When the names of a transaction were resolved, each of them is known, from before or by an answer. Each
command is the same up to the texts in which names stood: a package is the address of the first name in
its text, and a type is read again with an address in the place of each name.
-/

namespace ObjectLedger

/-! ### Commands without their names -/

/-- A package whose name gave way to its address. -/
inductive PackageRef.Addressed (memory : NameMemory) : PackageRef → PackageRef → Prop
  | address (a : Address) : Addressed memory (.address a) (.address a)
  | named {text name : String} {a : Address} (hname : (namesIn text).head? = some name)
      (ha : Table.get? memory name = some a) : Addressed memory (.named text) (.address a)

/-- A type whose names gave way to their addresses; one in which no name can stand is the same. -/
def TypeAddressed (memory : NameMemory) (t t' : String) : Prop :=
  if t.contains '@' then TypeTag.normalize (replaceNames memory t) = .ok t' else t' = t

/-- A command whose names gave way to their addresses, and which is the same otherwise; one in which no
name stands is the same. -/
inductive Command.Addressed (memory : NameMemory) : Command → Command → Prop
  | moveCall {call : MoveCall} {package : PackageRef} {typeArguments : List String}
      (hpackage : call.package.Addressed memory package)
      (htypes : List.Forall₂ (TypeAddressed memory) call.typeArguments typeArguments) :
      Addressed memory (.moveCall call) (.moveCall { call with package, typeArguments })
  | makeMoveVec {t t' : String} {elements : List Argument} (ht : TypeAddressed memory t t') :
      Addressed memory (.makeMoveVec (some t) elements) (.makeMoveVec (some t') elements)
  | intent {i : Intent} {t t' : String} (hi : i.type? = some t) (ht : TypeAddressed memory t t') :
      Addressed memory (.intent i) (.intent { i with data := i.data.withText "type" t' })
  | same {c : Command} (hc : ∀ text ∈ c.nameTexts, namesIn text = []) : Addressed memory c c

variable {memory : NameMemory}

theorem resolveType_eq_ok {t t' : String} :
    resolveType memory t = .ok t' ↔ TypeAddressed memory t t' := by
  unfold resolveType TypeAddressed
  split_ifs with h
  · exact Except.mapError_eq_ok _
  · rw [Except.ok.injEq, eq_comm]

theorem PackageRef.resolve_eq_ok {p p' : PackageRef} (h : p.resolve memory = .ok p') :
    p.Addressed memory p' := by
  cases p with
  | address a =>
    cases h
    exact .address a
  | named text =>
    simp only [resolve] at h
    cases hfound : (namesIn text).head?.bind (Table.get? memory) with
    | none =>
      rw [hfound] at h
      cases h
    | some a =>
      rw [hfound] at h
      cases h
      obtain ⟨name, hname, ha⟩ := Option.bind_eq_some_iff.mp hfound
      exact .named hname ha

namespace Command

theorem addressed_of_resolveNames {c d : Command} (h : c.resolveNames memory = .ok d) :
    c.Addressed memory d := by
  have hsame : ∀ c : Command, c.nameTexts = [] → c.Addressed memory c := by
    intro c hc
    refine .same fun text htext => ?_
    rw [hc] at htext
    cases htext
  cases c with
  | moveCall call =>
    obtain ⟨package, hpackage, h⟩ := Except.bind_eq_ok.mp h
    obtain ⟨typeArguments, htypes, h⟩ := Except.bind_eq_ok.mp h
    cases h
    refine .moveCall (PackageRef.resolve_eq_ok hpackage) ?_
    exact (Except.mapM_eq_ok.mp htypes).imp fun _ _ => resolveType_eq_ok.mp
  | makeMoveVec t elements =>
    cases t with
    | none =>
      cases h
      exact hsame _ rfl
    | some t =>
      obtain ⟨t', ht, h⟩ := Except.bind_eq_ok.mp h
      cases h
      exact .makeMoveVec (resolveType_eq_ok.mp ht)
  | intent i =>
    unfold resolveNames at h
    cases hi : i.type? with
    | none =>
      simp only [hi] at h
      cases h
      exact hsame _ (by simp [nameTexts, hi])
    | some t =>
      simp only [hi] at h
      obtain ⟨t', ht, h⟩ := Except.bind_eq_ok.mp h
      cases h
      exact .intent hi (resolveType_eq_ok.mp ht)
  | _ =>
    cases h
    exact hsame _ rfl

theorem Addressed.arguments_eq {c d : Command} (h : c.Addressed memory d) :
    d.arguments = c.arguments := by
  cases h <;> rfl

theorem Addressed.of_intent {c : Command} {i : Intent} (h : c.Addressed memory (.intent i)) :
    ∃ i', c = .intent i' ∧ i'.name = i.name := by
  cases h with
  | intent => exact ⟨_, rfl, rfl⟩
  | same => exact ⟨_, rfl, rfl⟩

theorem refsWithin_of_addressed {inputCount start : Nat} {cs ds : List Command}
    (h : List.Forall₂ (Addressed memory) cs ds) :
    RefsWithin inputCount start ds ↔ RefsWithin inputCount start cs := by
  induction h generalizing start with
  | nil => exact Iff.rfl
  | cons hc _ ih => rw [refsWithin_cons, refsWithin_cons, hc.arguments_eq, ih]

end Command

/-! ### What is asked and remembered -/

theorem flatten_batchesWithin {α : Type} {size fuel : Nat} {xs : List α} (hsize : 0 < size)
    (hfuel : xs.length ≤ fuel) : (batchesWithin size fuel xs).flatten = xs := by
  induction fuel generalizing xs with
  | zero =>
    obtain rfl := List.eq_nil_of_length_eq_zero (Nat.le_zero.mp hfuel)
    rfl
  | succ fuel ih =>
    unfold batchesWithin
    split_ifs with hempty
    · exact (List.isEmpty_iff.mp hempty).symm
    · have hpos := List.length_pos_of_ne_nil fun h => hempty (List.isEmpty_iff.mpr h)
      rw [List.flatten_cons, ih (by rw [List.length_drop]; omega), List.take_append_drop]

theorem flatten_batches {α : Type} (size : Nat) (xs : List α) : (batches size xs).flatten = xs :=
  flatten_batchesWithin (by omega) (Nat.le_refl _)

/-- Asked for some names while a condition on its state holds, the lookup may give one of them an address. -/
def BuildOptions.Answers {σ : Type} (o : BuildOptions σ) (holds : σ → Prop) (name : String)
    (a : Address) : Prop :=
  ∃ lookup names peer found peer', o.lookup = some lookup ∧ holds peer ∧
    lookup.packages names peer = (.ok found, peer') ∧ name ∈ names ∧ found.lookup name = some a

/-- What is known came from before or from an answer, and nothing that was known is forgotten. -/
structure Learnt {σ : Type} (o : BuildOptions σ) (holds : σ → Prop) (memory memory' : NameMemory) :
    Prop where
  source : ∀ name a, Table.get? memory' name = some a →
    Table.get? memory name = some a ∨ o.Answers holds name a
  known : ∀ name, (Table.get? memory name).isSome → (Table.get? memory' name).isSome

section Learning

variable {σ : Type} {o : BuildOptions σ} {holds : σ → Prop} {memory' memory'' : NameMemory}

theorem Lookup.AnswersFrom.package_eq_some {lookup : Lookup σ} {data : FixedData}
    (h : lookup.AnswersFrom holds data) (ho : o.lookup = some lookup) {name : String} {a : Address}
    (hname : o.Answers holds name a) : data.package name = some a := by
  obtain ⟨_, names, peer, found, peer', ho', hpeer, hpackages, hmem, ha⟩ := hname
  obtain rfl := Option.some.inj (ho.symm.trans ho')
  obtain ⟨found', _, heq, -, hfound⟩ := h.packages names peer hpeer
  rw [hpackages] at heq
  cases heq
  rw [← hfound name hmem, ha]

theorem Learnt.refl (memory : NameMemory) : Learnt o holds memory memory :=
  ⟨fun _ _ h => .inl h, fun _ h => h⟩

theorem Learnt.trans (h : Learnt o holds memory memory') (h' : Learnt o holds memory' memory'') :
    Learnt o holds memory memory'' where
  source := fun name a hname => by
    rcases h'.source name a hname with hname | hname
    · exact h.source name a hname
    · exact .inr hname
  known := fun name hname => h'.known name (h.known name hname)

theorem learnt_insert {name : String} {a : Address} (h : o.Answers holds name a) :
    Learnt o holds memory (Table.insert memory name a) where
  source := fun other b hother => by
    by_cases heq : other = name
    · subst heq
      rw [Table.get?_insert_self, Option.some.injEq] at hother
      exact .inr (hother ▸ h)
    · rw [Table.get?_insert_of_ne _ _ heq] at hother
      exact .inl hother
  known := fun other hother => by
    by_cases heq : other = name
    · rw [heq, Table.get?_insert_self]
      rfl
    · rwa [Table.get?_insert_of_ne _ _ heq]

theorem learn_eq_ok {found : List (String × Address)} {names : List String}
    (hanswers : ∀ name ∈ names, ∀ a, found.lookup name = some a → o.Answers holds name a)
    (h : learn found names memory = (.ok (), memory')) :
    Learnt o holds memory memory' ∧ ∀ name ∈ names, (Table.get? memory' name).isSome := by
  induction names generalizing memory with
  | nil =>
    obtain ⟨-, rfl⟩ := Prod.mk.inj h
    exact ⟨.refl memory, by simp⟩
  | cons name names ih =>
    unfold learn at h
    cases hname : found.lookup name with
    | none =>
      simp only [hname] at h
      cases (Prod.mk.inj h).1
    | some a =>
      simp only [hname] at h
      obtain ⟨hfirst, hothers⟩ := List.forall_mem_cons.mp hanswers
      obtain ⟨hlearnt, hknown⟩ := ih hothers h
      refine ⟨(learnt_insert (hfirst a hname)).trans hlearnt,
        List.forall_mem_cons.mpr ⟨hlearnt.known name ?_, hknown⟩⟩
      rw [Table.get?_insert_self]
      rfl

theorem learnBatches_eq_ok {lookup : Lookup σ} {parts : List (List String)} {w w' : World σ}
    (hlookup : o.lookup = some lookup) (ho : o.Keeps holds) (hw : holds w.peer)
    (h : learnBatches lookup parts memory w = (.ok (), memory', w')) :
    Learnt o holds memory memory' ∧ ∀ name ∈ parts.flatten, (Table.get? memory' name).isSome := by
  induction parts generalizing memory w with
  | nil =>
    obtain ⟨-, h⟩ := Prod.mk.inj h
    obtain ⟨rfl, -⟩ := Prod.mk.inj h
    exact ⟨.refl memory, by simp⟩
  | cons part parts ih =>
    unfold learnBatches at h
    rcases hask : (Build.ask (lookup.packages part)).exec w with ⟨e | found, w₁⟩
    · simp only [hask] at h
      cases (Prod.mk.inj h).1
    · obtain ⟨peer, hpackages, rfl⟩ := Build.exec_ask_eq_ok.mp hask
      have hpeer : holds peer := by
        have hkept := (ho lookup hlookup).packages part w.peer hw
        rwa [hpackages] at hkept
      simp only [hask] at h
      rcases hlearn : learn found part memory with ⟨e | ⟨⟩, memory₁⟩
      · simp only [hlearn] at h
        cases (Prod.mk.inj h).1
      · simp only [hlearn] at h
        have hanswers : ∀ name ∈ part, ∀ a, found.lookup name = some a → o.Answers holds name a :=
          fun name hmem a hname => ⟨lookup, part, _, found, peer, hlookup, hw, hpackages, hmem, hname⟩
        obtain ⟨hfirst, hpart⟩ := learn_eq_ok hanswers hlearn
        obtain ⟨hrest, hparts⟩ := ih hpeer h
        refine ⟨hfirst.trans hrest, fun name hname => ?_⟩
        rw [List.flatten_cons, List.mem_append] at hname
        rcases hname with hname | hname
        · exact hrest.known name (hpart name hname)
        · exact hparts name hname

end Learning

/-! ### A run of the stage -/

theorem mem_insertSorted {s t : String} {sorted : List String} :
    s ∈ insertSorted t sorted ↔ s = t ∨ s ∈ sorted := by
  induction sorted with
  | nil => simp [insertSorted]
  | cons u sorted ih =>
    unfold insertSorted
    split_ifs with hlt heq
    · simp
    · subst heq
      simp
    · rw [List.mem_cons, ih, List.mem_cons]
      tauto

theorem mem_foldl_insertSorted {s : String} {texts sorted : List String} :
    s ∈ texts.foldl (fun acc t => insertSorted t acc) sorted ↔ s ∈ texts ∨ s ∈ sorted := by
  induction texts generalizing sorted with
  | nil => simp
  | cons t texts ih =>
    rw [List.foldl_cons, ih, mem_insertSorted, List.mem_cons]
    tauto

theorem Transaction.mem_names {tx : Transaction} {name : String} :
    name ∈ tx.names ↔ ∃ c ∈ tx.commands, ∃ text ∈ c.nameTexts, name ∈ namesIn text := by
  unfold names
  rw [mem_foldl_insertSorted]
  simp [List.mem_flatMap]
  tauto

/-- **What the stage does.** Each name is known afterwards, and gave way to its address. -/
theorem resolveNames_eq_ok {σ : Type} {o : BuildOptions σ} {batch : Nat} {memory' : NameMemory}
    {tx tx' : Transaction} {w w' : World σ}
    (h : resolveNames batch o memory tx w = (.ok tx', memory', w')) :
    (∀ holds, o.Keeps holds → holds w.peer → Learnt o holds memory memory') ∧
      (∀ name ∈ tx.names, (Table.get? memory' name).isSome) ∧
      ∃ commands, List.Forall₂ (Command.Addressed memory') tx.commands commands ∧
        tx' = { tx with commands } := by
  have hfinish : ∀ memory, (tx.commands.mapM (Command.resolveNames memory)).map
      (fun commands => { tx with commands }) = .ok tx' →
      ∃ commands, List.Forall₂ (Command.Addressed memory) tx.commands commands ∧
        tx' = { tx with commands } := by
    intro memory h
    obtain ⟨commands, hcommands, rfl⟩ := Except.map_eq_ok.mp h
    exact ⟨commands, (Except.mapM_eq_ok.mp hcommands).imp fun _ _ =>
      Command.addressed_of_resolveNames, rfl⟩
  unfold resolveNames at h
  simp only at h
  -- There are no names; or all are known; or those that are missing are asked for.
  split_ifs at h with hnames hmissing
  · obtain ⟨htx, h⟩ := Prod.mk.inj h
    obtain ⟨rfl, -⟩ := Prod.mk.inj h
    cases htx
    have hnil : tx.names = [] := List.isEmpty_iff.mp hnames
    refine ⟨fun _ _ _ => .refl _, by simp [hnil], tx.commands, List.forall₂_same.mpr fun c hc => ?_, rfl⟩
    refine .same fun text htext => List.eq_nil_iff_forall_not_mem.mpr fun name hname => ?_
    have hmem := Transaction.mem_names.mpr ⟨c, hc, text, htext, hname⟩
    rw [hnil] at hmem
    cases hmem
  · obtain ⟨htx, h⟩ := Prod.mk.inj h
    obtain ⟨rfl, -⟩ := Prod.mk.inj h
    refine ⟨fun _ _ _ => .refl _, fun name hname => ?_, hfinish _ htx⟩
    have hnone := List.filter_eq_nil_iff.mp (List.isEmpty_iff.mp hmissing) name hname
    simpa [Option.isSome_iff_ne_none] using hnone
  · cases hlookup : o.lookup with
    | none =>
      simp only [hlookup] at h
      cases (Prod.mk.inj h).1
    | some lookup =>
      simp only [hlookup] at h
      rcases hlearn : learnBatches lookup (batches batch (tx.names.filter fun name =>
        (Table.get? memory name).isNone)) memory w with ⟨e | ⟨⟩, memory₁, w₁⟩
      · simp only [hlearn] at h
        cases (Prod.mk.inj h).1
      · simp only [hlearn] at h
        obtain ⟨htx, h⟩ := Prod.mk.inj h
        obtain ⟨rfl, -⟩ := Prod.mk.inj h
        -- Which names are known in the end is a matter of no condition.
        obtain ⟨hlearnt, hknown⟩ := learnBatches_eq_ok hlookup o.keeps_true trivial hlearn
        refine ⟨fun _ ho hw => (learnBatches_eq_ok hlookup ho hw hlearn).1, fun name hname => ?_,
          hfinish _ htx⟩
        cases hbefore : Table.get? memory name with
        | some a => exact hlearnt.known name (by rw [hbefore]; rfl)
        | none =>
          refine hknown name ?_
          rw [flatten_batches]
          exact List.mem_filter.mpr ⟨hname, by rw [hbefore]; rfl⟩

end ObjectLedger
