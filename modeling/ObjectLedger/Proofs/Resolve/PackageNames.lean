import ObjectLedger.Proofs.Resolve.Pipeline
import ObjectLedger.Proofs.Transaction.Readiness

/-!
# Which address a name stands for

Where names are answered from fixed data, a run that succeeds gives each package the address of the first
name in its text, and reads each type again with the address of each name in it; a name without an answer
makes the run fail. The text of a package need not be a name as a whole: what stands around the name is
lost.
-/

namespace ObjectLedger

/-! ### Names by what a function answers -/

/-- A text with each name that has an answer replaced by its address. -/
def replaceNamesBy (f : String → Option Address) (text : String) : String :=
  String.ofList ((namePieces text).flatMap fun
    | .name name =>
      match f name with
      | some a => a.chars
      | none => name.toList
    | .other c => [c])

/-- A package named by a text is at the address that answers the first name in the text. -/
def PackageRef.NamedBy (f : String → Option Address) (p p' : PackageRef) : Prop :=
  match p with
  | .address _ => p' = p
  | .named text => ∃ name a, (namesIn text).head? = some name ∧ f name = some a ∧ p' = .address a

/-- A type in which names may stand is the canonical form of its text with addresses for its names. -/
def TypeNamedBy (f : String → Option Address) (t t' : String) : Prop :=
  if t.contains '@' then
    (∀ name ∈ namesIn t, (f name).isSome) ∧ TypeTag.normalize (replaceNamesBy f t) = .ok t'
  else t' = t

/-- The same command, with the addresses that a function answers for the names in it. -/
inductive Command.NamedBy (f : String → Option Address) : Command → Command → Prop
  | moveCall {call call' : MoveCall} (hpackage : call.package.NamedBy f call'.package)
      (hmodule : call'.module = call.module) (hfunction : call'.function = call.function)
      (htypes : List.Forall₂ (TypeNamedBy f) call.typeArguments call'.typeArguments) :
      NamedBy f (.moveCall call) (.moveCall call')
  | makeMoveVec {t t' : String} {elements elements' : List Argument} (ht : TypeNamedBy f t t') :
      NamedBy f (.makeMoveVec (some t) elements) (.makeMoveVec (some t') elements')
  | nameless {c c' : Command} (hc : c.nameTexts = []) (hc' : c'.nameTexts = [])
      (hkind : c'.kind = c.kind) : NamedBy f c c'

variable {f : String → Option Address} {memory : NameMemory}

theorem replaceNamesBy_congr {g : String → Option Address} {text : String}
    (h : ∀ name ∈ namesIn text, f name = g name) : replaceNamesBy f text = replaceNamesBy g text := by
  unfold replaceNamesBy
  refine congrArg String.ofList (List.flatMap_congr fun piece hpiece => ?_)
  cases piece with
  | other c => rfl
  | name name =>
    have hname : name ∈ namesIn text := List.mem_filterMap.mpr ⟨_, hpiece, rfl⟩
    simp only [h name hname]

def AnswersNames (f : String → Option Address) (memory : NameMemory) : Prop :=
  ∀ name a, Table.get? memory name = some a → f name = some a

theorem typeNamedBy_of_addressed {t t' : String} (hmemory : AnswersNames f memory)
    (hknown : ∀ name ∈ namesIn t, (Table.get? memory name).isSome)
    (h : TypeAddressed memory t t') : TypeNamedBy f t t' := by
  unfold TypeAddressed at h
  unfold TypeNamedBy
  split_ifs with hat
  · rw [if_pos hat] at h
    have heq : ∀ name ∈ namesIn t, Table.get? memory name = f name := by
      intro name hname
      obtain ⟨a, ha⟩ := Option.isSome_iff_exists.mp (hknown name hname)
      rw [ha, hmemory name a ha]
    refine ⟨fun name hname => heq name hname ▸ hknown name hname, ?_⟩
    rw [← replaceNamesBy_congr heq]
    exact h
  · rwa [if_neg hat] at h

namespace Transaction

theorem openPart_eq_none {tx : Transaction} (h : tx.validateResolved = .ok ()) {c : Command}
    (hc : c ∈ tx.commands) : c.openPart? = none :=
  (validateResolved_eq_ok.mp h).2.2 c hc

end Transaction

/-! ### Commands of a run -/

section Commands

variable {R : Argument → Argument → Prop} {c d c' : Command}

theorem Command.namedBy_of_nameless (hnames : ∀ text ∈ c.nameTexts, namesIn text = [])
    (hc : Transaction.isIntent c = false) (hmaps : Command.Maps R c c')
    (hopen : c'.openPart? = none) : c.NamedBy f c' := by
  cases hmaps with
  | @moveCall call arguments _ =>
    cases hpackage : call.package with
    | named text =>
      simp only [openPart?, hpackage] at hopen
      cases hopen
    | address a =>
      have htypes : ∀ t ∈ call.typeArguments, t.contains '@' = false := by
        simpa [openPart?, hpackage] using hopen
      refine .moveCall (by rw [hpackage]; rfl) rfl rfl ?_
      refine List.forall₂_same.mpr fun t ht => ?_
      rw [TypeNamedBy, htypes t ht]
      rfl
  | makeMoveVec t _ =>
    cases t with
    | none => exact .nameless rfl rfl rfl
    | some t =>
      have ht : t.contains '@' = false := by simpa [openPart?] using hopen
      refine .makeMoveVec ?_
      rw [TypeNamedBy, ht]
      rfl
  | intent => cases hc
  | _ => exact .nameless rfl rfl rfl

theorem Command.namedBy_of_addressed (hmemory : AnswersNames f memory)
    (hknown : ∀ text ∈ c.nameTexts, ∀ name ∈ namesIn text, (Table.get? memory name).isSome)
    (hc : Transaction.isIntent c = false) (haddressed : c.Addressed memory d)
    (hmaps : Command.Maps R d c') (hopen : c'.openPart? = none) : c.NamedBy f c' := by
  cases haddressed with
  | @moveCall call package typeArguments hpackage htypes =>
    cases hmaps with
    | moveCall =>
      refine .moveCall ?_ rfl rfl (htypes.imp_of_mem fun t t' ht hty => ?_)
      · generalize call.package = p at hpackage
        cases hpackage with
        | address a => rfl
        | named hname ha => exact ⟨_, _, hname, hmemory _ _ ha, rfl⟩
      · refine typeNamedBy_of_addressed hmemory (hknown t ?_) hty
        rw [nameTexts]
        split
        · exact List.mem_cons_of_mem _ ht
        · exact ht
  | @makeMoveVec t t' elements ht =>
    cases hmaps with
    | makeMoveVec =>
      have hnames := hknown t (by simp [nameTexts])
      exact .makeMoveVec (typeNamedBy_of_addressed hmemory hnames ht)
  | intent => cases hc
  | same hnames => exact namedBy_of_nameless hnames hc hmaps hopen

end Commands

namespace Pipeline

variable {σ : Type} {o : BuildOptions σ} {holds : σ → Prop} {tx tx' : Transaction} {w : World σ}
  {config : ResolverConfig} {registry : IntentRegistry σ}

/-- **Names give way to answers.** When names are answered from fixed data, a run that succeeds knows each
name of the transaction. Each package is at the address of the first name in its text, each type is read
with the addresses of the names in it, and each command keeps its kind. -/
theorem names_answered (hf : ∀ name a, o.Answers holds name a → f name = some a) (ho : o.Keeps holds)
    (hpeer : holds w.peer) (hmemory : AnswersNames f memory) (hvalid : tx.validate = .ok ())
    (hhandles : ∀ i, .intent i ∈ tx.commands → registry.Handles i.name)
    (h : ((standardWith memory config registry).run o tx w).1 = .ok tx') :
    (∀ name ∈ tx.names, (f name).isSome) ∧
      ∃ blocks, tx'.commands = Block.allCommands blocks ∧
        Block.Laid (fun _ c block => Transaction.isIntent c = false →
          ∃ c', block.commands = [c'] ∧ c.NamedBy f c') 0 tx.commands blocks := by
  obtain ⟨hran⟩ := ran_of_run h
  obtain ⟨hlearnt, hknown, -⟩ := resolveNames_eq_ok hran.names
  have hanswers : AnswersNames f hran.memory' := by
    intro name a ha
    rcases (hlearnt holds ho (hran.holds_start hpeer)).source name a ha with ha | ha
    · exact hmemory name a ha
    · exact hf name a ha
  obtain ⟨blocks, hblocks, hlaid, -⟩ := hran.blocks hvalid hhandles
  have hcommands : tx'.commands = Block.allCommands blocks :=
    (completes_of_stages hran.objects hran.gas).1.trans hblocks
  refine ⟨fun name hname => ?_, blocks, hcommands, hlaid.imp_of_mem fun place c block hc hblock => ?_⟩
  · obtain ⟨a, ha⟩ := Option.isSome_iff_exists.mp (hknown name hname)
    rw [hanswers name a ha]
    rfl
  -- A block of the other two kinds is that of an intent, which naming leaves an intent.
  · rintro ⟨d, haddressed, hsettled⟩ hintent
    cases hsettled with
    | @kept _ c' _ _ hmaps _ =>
      refine ⟨c', rfl, Command.namedBy_of_addressed hanswers ?_ hintent haddressed hmaps ?_⟩
      · intro text htext name hname
        exact hknown name (Transaction.mem_names.mpr ⟨c, hc, text, htext, hname⟩)
      · refine Transaction.openPart_eq_none hran.resolved ?_
        rw [hcommands]
        exact List.mem_flatMap.mpr ⟨_, hblock, List.mem_cons_self⟩
    | removed =>
      obtain ⟨i, rfl, -⟩ := haddressed.of_intent
      cases hintent
    | coin =>
      obtain ⟨i, rfl, -⟩ := haddressed.of_intent
      cases hintent

def oneName : InMemory where
  packages := [("@org/app", .ofUInt64 10)]

def callOf (package : PackageRef) : Transaction where
  commands := [.moveCall ⟨package, "m", "f", [], []⟩]

theorem answers_oneName {name : String} {a : Address}
    (h : InMemory.kindOptions.Answers oneName.Asked name a) : oneName.data.package name = some a :=
  oneName.answersFrom_lookup.package_eq_some rfl h

theorem names_answered_callOf :
    (∀ name a, InMemory.kindOptions.Answers oneName.Asked name a → oneName.data.package name = some a) ∧
      InMemory.kindOptions.Keeps oneName.Asked ∧ oneName.Asked oneName ∧
      AnswersNames oneName.data.package [] ∧
      (callOf (.named "@org/app")).validate = .ok () ∧
      (∀ i, .intent i ∈ (callOf (.named "@org/app")).commands →
        (IntentRegistry.standard : IntentRegistry InMemory).Handles i.name) ∧
      ((standardWith [] {} .standard).run InMemory.kindOptions (callOf (.named "@org/app"))
          ⟨oneName, {}, 0⟩).1 =
        .ok (callOf (.address (.ofUInt64 10))) ∧
      (∀ name ∈ (callOf (.named "@org/app")).names, (oneName.data.package name).isSome) ∧
      ∃ blocks, (callOf (.address (.ofUInt64 10))).commands = Block.allCommands blocks ∧
        Block.Laid (fun _ c block => Transaction.isIntent c = false →
          ∃ c', block.commands = [c'] ∧ c.NamedBy oneName.data.package c') 0
          (callOf (.named "@org/app")).commands blocks := by
  have hkeeps := InMemory.keeps_kindOptions oneName
  have hpeer := InMemory.Asked.refl oneName
  have hmemory : AnswersNames oneName.data.package [] := fun _ _ h => by cases h
  have hvalid : (callOf (.named "@org/app")).validate = .ok () := by decide +kernel
  have hhandles : ∀ i, .intent i ∈ (callOf (.named "@org/app")).commands →
      (IntentRegistry.standard : IntentRegistry InMemory).Handles i.name := by
    intro i hi
    simp [callOf] at hi
  have hrun : ((standardWith [] {} .standard).run InMemory.kindOptions (callOf (.named "@org/app"))
      ⟨oneName, {}, 0⟩).1 = .ok (callOf (.address (.ofUInt64 10))) := by decide +kernel
  obtain ⟨hnames, hcommands⟩ :=
    names_answered (fun _ _ => answers_oneName) hkeeps hpeer hmemory hvalid hhandles hrun
  exact ⟨fun _ _ => answers_oneName, hkeeps, hpeer, hmemory, hvalid, hhandles, hrun, hnames, hcommands⟩

/-- A package whose text goes on behind the name is taken for the package of the name, although the text
as a whole has no answer. -/
theorem run_callOf_longer :
    ((standardWith [] {} .standard).run InMemory.kindOptions (callOf (.named "@org/app/x"))
          ⟨oneName, {}, 0⟩).1 =
        .ok (callOf (.address (.ofUInt64 10))) ∧
      oneName.data.package "@org/app/x" = none ∧
      oneName.data.package "@org/app" = some (.ofUInt64 10) := by
  refine ⟨?_, ?_, ?_⟩
  · decide +kernel
  · decide +kernel
  · decide +kernel

end Pipeline

end ObjectLedger
