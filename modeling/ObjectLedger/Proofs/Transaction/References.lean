import ObjectLedger.Proofs.Prelude
import ObjectLedger.Transaction.Validity

/-!
# Arguments and what they refer to

Two commands correspond when they differ in their arguments alone, and these are related one by one;
mapping the arguments of a command gives a command that corresponds to it. A transaction is valid when
its entries can be numbered and each argument refers to an input that exists or to an earlier command.
-/

namespace ObjectLedger

/-! ### Commands argument by argument -/

namespace Command

/-- The second command is the first one with related arguments in place of its own. -/
inductive Maps (R : Argument → Argument → Prop) : Command → Command → Prop
  | moveCall {call : MoveCall} {arguments : List Argument}
      (h : List.Forall₂ R call.arguments arguments) :
      Maps R (moveCall call) (moveCall { call with arguments })
  | transferObjects {objects objects' : List Argument} {recipient recipient' : Argument}
      (h : List.Forall₂ R objects objects') (hrecipient : R recipient recipient') :
      Maps R (transferObjects objects recipient) (transferObjects objects' recipient')
  | splitCoins {coin coin' : Argument} {amounts amounts' : List Argument} (hcoin : R coin coin')
      (h : List.Forall₂ R amounts amounts') :
      Maps R (splitCoins coin amounts) (splitCoins coin' amounts')
  | mergeCoins {destination destination' : Argument} {sources sources' : List Argument}
      (hdestination : R destination destination') (h : List.Forall₂ R sources sources') :
      Maps R (mergeCoins destination sources) (mergeCoins destination' sources')
  | publish (modules : List (List UInt8)) (dependencies : List ObjectId) :
      Maps R (publish modules dependencies) (publish modules dependencies)
  | makeMoveVec (elementType : Option String) {elements elements' : List Argument}
      (h : List.Forall₂ R elements elements') :
      Maps R (makeMoveVec elementType elements) (makeMoveVec elementType elements')
  | upgrade (modules : List (List UInt8)) (dependencies : List ObjectId) (package : ObjectId)
      {ticket ticket' : Argument} (h : R ticket ticket') :
      Maps R (upgrade modules dependencies package ticket)
        (upgrade modules dependencies package ticket')
  | intent {i : Intent} {inputs : List (String × List Argument)}
      (h : List.Forall₂ (fun x y => x.1 = y.1 ∧ List.Forall₂ R x.2 y.2) i.inputs inputs) :
      Maps R (intent i) (intent { i with inputs })

variable {R S : Argument → Argument → Prop} {c c' : Command}

theorem Maps.arguments (h : Maps R c c') : List.Forall₂ R c.arguments c'.arguments := by
  cases h with
  | moveCall h => exact h
  | transferObjects h hrecipient => exact List.rel_append h (.cons hrecipient .nil)
  | splitCoins hcoin h => exact .cons hcoin h
  | mergeCoins hdestination h => exact .cons hdestination h
  | publish => exact .nil
  | makeMoveVec _ h => exact h
  | upgrade _ _ _ h => exact .cons h .nil
  | intent h => exact List.rel_flatMap h fun _ _ h => h.2

theorem Maps.imp_of_mem (h : Maps R c c') (hRS : ∀ a b, a ∈ c.arguments → R a b → S a b) :
    Maps S c c' := by
  cases h with
  | moveCall h => exact .moveCall (h.imp_of_mem hRS)
  | transferObjects h hrecipient =>
    exact .transferObjects
      (h.imp_of_mem fun a b ha => hRS a b (List.mem_append_left _ ha))
      (hRS _ _ (List.mem_append_right _ List.mem_cons_self) hrecipient)
  | splitCoins hcoin h =>
    exact .splitCoins (hRS _ _ List.mem_cons_self hcoin)
      (h.imp_of_mem fun a b ha => hRS a b (List.mem_cons_of_mem _ ha))
  | mergeCoins hdestination h =>
    exact .mergeCoins (hRS _ _ List.mem_cons_self hdestination)
      (h.imp_of_mem fun a b ha => hRS a b (List.mem_cons_of_mem _ ha))
  | publish => exact .publish _ _
  | makeMoveVec elementType h => exact .makeMoveVec elementType (h.imp_of_mem hRS)
  | upgrade _ _ _ h => exact .upgrade _ _ _ (hRS _ _ List.mem_cons_self h)
  | intent h =>
    refine .intent (h.imp_of_mem fun x y hx hentry => ⟨hentry.1, ?_⟩)
    refine hentry.2.imp_of_mem fun a b ha => hRS a b ?_
    exact List.mem_flatMap.mpr ⟨x, hx, ha⟩

theorem maps_self (hR : ∀ a, R a a) (c : Command) : Maps R c c := by
  have hlist : ∀ as : List Argument, List.Forall₂ R as as := fun as =>
    List.forall₂_same.mpr fun a _ => hR a
  cases c with
  | moveCall call => exact .moveCall (hlist _)
  | transferObjects objects recipient => exact .transferObjects (hlist _) (hR _)
  | splitCoins coin amounts => exact .splitCoins (hR _) (hlist _)
  | mergeCoins destination sources => exact .mergeCoins (hR _) (hlist _)
  | publish modules dependencies => exact .publish _ _
  | makeMoveVec elementType elements => exact .makeMoveVec _ (hlist _)
  | upgrade modules dependencies package ticket => exact .upgrade _ _ _ (hR _)
  | intent i => exact .intent (List.forall₂_same.mpr fun x _ => ⟨rfl, hlist x.2⟩)

theorem Maps.comp_of_mem {T : Argument → Argument → Prop} {c'' : Command} (h : Maps R c c')
    (h' : Maps S c' c'') (hRST : ∀ a b b', a ∈ c.arguments → R a b → S b b' → T a b') :
    Maps T c c'' := by
  cases h with
  | moveCall h =>
    cases h' with
    | moveCall h' => exact .moveCall (h.comp_of_mem h' hRST)
  | transferObjects h hrecipient =>
    cases h' with
    | transferObjects h' hrecipient' =>
      exact .transferObjects
        (h.comp_of_mem h' fun a b b' ha => hRST a b b' (List.mem_append_left _ ha))
        (hRST _ _ _ (List.mem_append_right _ List.mem_cons_self) hrecipient hrecipient')
  | splitCoins hcoin h =>
    cases h' with
    | splitCoins hcoin' h' =>
      exact .splitCoins (hRST _ _ _ List.mem_cons_self hcoin hcoin')
        (h.comp_of_mem h' fun a b b' ha => hRST a b b' (List.mem_cons_of_mem _ ha))
  | mergeCoins hdestination h =>
    cases h' with
    | mergeCoins hdestination' h' =>
      exact .mergeCoins (hRST _ _ _ List.mem_cons_self hdestination hdestination')
        (h.comp_of_mem h' fun a b b' ha => hRST a b b' (List.mem_cons_of_mem _ ha))
  | publish =>
    cases h' with
    | publish => exact .publish _ _
  | makeMoveVec _ h =>
    cases h' with
    | makeMoveVec _ h' => exact .makeMoveVec _ (h.comp_of_mem h' hRST)
  | upgrade _ _ _ h =>
    cases h' with
    | upgrade _ _ _ h' => exact .upgrade _ _ _ (hRST _ _ _ List.mem_cons_self h h')
  | intent h =>
    cases h' with
    | intent h' =>
      refine .intent (h.comp_of_mem h' fun x y z hx hxy hyz => ⟨hxy.1.trans hyz.1, ?_⟩)
      refine hxy.2.comp_of_mem hyz.2 fun a b b' ha => hRST a b b' ?_
      exact List.mem_flatMap.mpr ⟨x, hx, ha⟩

theorem exists_maps (h : ∀ a ∈ c.arguments, ∃ b, R a b) : ∃ c', Maps R c c' := by
  cases c with
  | moveCall call =>
    obtain ⟨arguments, h⟩ := List.exists_forall₂ h
    exact ⟨_, .moveCall h⟩
  | transferObjects objects recipient =>
    obtain ⟨objects', h'⟩ := List.exists_forall₂ fun a ha => h a (List.mem_append_left _ ha)
    obtain ⟨recipient', hrecipient⟩ := h recipient (List.mem_append_right _ List.mem_cons_self)
    exact ⟨_, .transferObjects h' hrecipient⟩
  | splitCoins coin amounts =>
    obtain ⟨coin', hcoin⟩ := h coin List.mem_cons_self
    obtain ⟨amounts', h'⟩ := List.exists_forall₂ fun a ha => h a (List.mem_cons_of_mem _ ha)
    exact ⟨_, .splitCoins hcoin h'⟩
  | mergeCoins destination sources =>
    obtain ⟨destination', hdestination⟩ := h destination List.mem_cons_self
    obtain ⟨sources', h'⟩ := List.exists_forall₂ fun a ha => h a (List.mem_cons_of_mem _ ha)
    exact ⟨_, .mergeCoins hdestination h'⟩
  | publish modules dependencies => exact ⟨_, .publish _ _⟩
  | makeMoveVec elementType elements =>
    obtain ⟨elements', h⟩ := List.exists_forall₂ h
    exact ⟨_, .makeMoveVec _ h⟩
  | upgrade modules dependencies package ticket =>
    obtain ⟨ticket', h⟩ := h ticket List.mem_cons_self
    exact ⟨_, .upgrade _ _ _ h⟩
  | intent i =>
    have hentry : ∀ x ∈ i.inputs, ∃ y : String × List Argument,
        x.1 = y.1 ∧ List.Forall₂ R x.2 y.2 := by
      intro x hx
      obtain ⟨arguments, harguments⟩ := List.exists_forall₂ fun a ha =>
        h a (List.mem_flatMap.mpr ⟨x, hx, ha⟩)
      exact ⟨(x.1, arguments), rfl, harguments⟩
    obtain ⟨inputs, h⟩ := List.exists_forall₂ hentry
    exact ⟨_, .intent h⟩

theorem mapArguments_eq_ok {ε : Type} {f : Argument → Except ε Argument} :
    c.mapArguments f = .ok c' ↔ Maps (fun a b => f a = .ok b) c c' := by
  have hlist : ∀ {as bs}, as.mapM f = .ok bs ↔ List.Forall₂ (fun a b => f a = .ok b) as bs :=
    Except.mapM_eq_ok
  constructor
  · intro h
    cases c with
    | moveCall call =>
      obtain ⟨arguments, h', h⟩ := Except.bind_eq_ok.mp h
      cases h
      exact .moveCall (hlist.mp h')
    | transferObjects objects recipient =>
      obtain ⟨objects', h', h⟩ := Except.bind_eq_ok.mp h
      obtain ⟨recipient', hrecipient, h⟩ := Except.bind_eq_ok.mp h
      cases h
      exact .transferObjects (hlist.mp h') hrecipient
    | splitCoins coin amounts =>
      obtain ⟨coin', hcoin, h⟩ := Except.bind_eq_ok.mp h
      obtain ⟨amounts', h', h⟩ := Except.bind_eq_ok.mp h
      cases h
      exact .splitCoins hcoin (hlist.mp h')
    | mergeCoins destination sources =>
      obtain ⟨destination', hdestination, h⟩ := Except.bind_eq_ok.mp h
      obtain ⟨sources', h', h⟩ := Except.bind_eq_ok.mp h
      cases h
      exact .mergeCoins hdestination (hlist.mp h')
    | publish modules dependencies =>
      cases h
      exact .publish _ _
    | makeMoveVec elementType elements =>
      obtain ⟨elements', h', h⟩ := Except.bind_eq_ok.mp h
      cases h
      exact .makeMoveVec _ (hlist.mp h')
    | upgrade modules dependencies package ticket =>
      obtain ⟨ticket', hticket, h⟩ := Except.bind_eq_ok.mp h
      cases h
      exact .upgrade _ _ _ hticket
    | intent i =>
      obtain ⟨inputs, h', h⟩ := Except.bind_eq_ok.mp h
      cases h
      refine .intent ((Except.mapM_eq_ok.mp h').imp fun x y hentry => ?_)
      obtain ⟨arguments, harguments, hentry⟩ := Except.bind_eq_ok.mp hentry
      cases hentry
      exact ⟨rfl, hlist.mp harguments⟩
  · intro h
    cases h with
    | moveCall h => exact Except.bind_eq_ok.mpr ⟨_, hlist.mpr h, rfl⟩
    | transferObjects h hrecipient =>
      exact Except.bind_eq_ok.mpr ⟨_, hlist.mpr h, Except.bind_eq_ok.mpr ⟨_, hrecipient, rfl⟩⟩
    | splitCoins hcoin h =>
      exact Except.bind_eq_ok.mpr ⟨_, hcoin, Except.bind_eq_ok.mpr ⟨_, hlist.mpr h, rfl⟩⟩
    | mergeCoins hdestination h =>
      exact Except.bind_eq_ok.mpr ⟨_, hdestination, Except.bind_eq_ok.mpr ⟨_, hlist.mpr h, rfl⟩⟩
    | publish => rfl
    | makeMoveVec _ h => exact Except.bind_eq_ok.mpr ⟨_, hlist.mpr h, rfl⟩
    | upgrade _ _ _ h => exact Except.bind_eq_ok.mpr ⟨_, h, rfl⟩
    | intent h =>
      refine Except.bind_eq_ok.mpr ⟨_, Except.mapM_eq_ok.mpr (h.imp fun x y hentry => ?_), rfl⟩
      obtain ⟨name, arguments⟩ := y
      obtain ⟨rfl, harguments⟩ := hentry
      exact Except.bind_eq_ok.mpr ⟨_, hlist.mpr harguments, rfl⟩

theorem maps_map (f : Argument → Argument) (c : Command) :
    Maps (fun a b => f a = b) c (c.map f) := by
  have hlist : ∀ as : List Argument,
      List.Forall₂ (fun a b => f a = b) as (as.mapM fun a => (pure (f a) : Id Argument)).run := by
    intro as
    rw [List.mapM_pure]
    exact List.forall₂_map_right_iff.mpr (List.forall₂_same.mpr fun _ _ => rfl)
  cases c with
  | moveCall call => exact .moveCall (hlist _)
  | transferObjects objects recipient => exact .transferObjects (hlist _) rfl
  | splitCoins coin amounts => exact .splitCoins rfl (hlist _)
  | mergeCoins destination sources => exact .mergeCoins rfl (hlist _)
  | publish modules dependencies => exact .publish _ _
  | makeMoveVec elementType elements => exact .makeMoveVec _ (hlist _)
  | upgrade modules dependencies package ticket => exact .upgrade _ _ _ rfl
  | intent i =>
    have hentries : List.Forall₂ (fun (x y : String × List Argument) =>
        x.1 = y.1 ∧ List.Forall₂ (fun a b => f a = b) x.2 y.2) i.inputs
        (i.inputs.mapM fun x => (pure (x.1, (x.2.mapM fun a => (pure (f a) : Id Argument)).run) :
          Id (String × List Argument))).run := by
      rw [List.mapM_pure]
      exact List.forall₂_map_right_iff.mpr (List.forall₂_same.mpr fun x _ => ⟨rfl, hlist x.2⟩)
    exact .intent hentries

end Command

/-! ### References -/

/-- The argument of a command at an index names an input that exists or an earlier command. -/
def Argument.Within (command inputCount : Nat) : Argument → Prop
  | feeObject => True
  | input index => index.toNat < inputCount
  | result k | nestedResult k _ => k.toNat < command

/-- So do all arguments of commands whose first one has an index. -/
def Command.RefsWithin (inputCount start : Nat) (commands : List Command) : Prop :=
  ∀ entry ∈ commands.zipIdx start, ∀ a ∈ entry.1.arguments, a.Within entry.2 inputCount

theorem Argument.Within.mono {command command' inputCount inputCount' : Nat} {a : Argument}
    (h : a.Within command inputCount) (hcommand : command ≤ command')
    (hinputs : inputCount ≤ inputCount') : a.Within command' inputCount' := by
  cases a with
  | feeObject => trivial
  | input index => exact Nat.lt_of_lt_of_le h hinputs
  | result k => exact Nat.lt_of_lt_of_le h hcommand
  | nestedResult k _ => exact Nat.lt_of_lt_of_le h hcommand

theorem Argument.check_eq_ok {command inputCount : Nat} {a : Argument} :
    a.check command inputCount = .ok () ↔ a.Within command inputCount := by
  cases a <;> simp [check, Within]

theorem Argument.checkAll_eq_ok {command inputCount : Nat} {as : List Argument} :
    checkAll command inputCount as = .ok () ↔ ∀ a ∈ as, a.Within command inputCount := by
  induction as with
  | nil => simp [checkAll]
  | cons a as ih =>
    rw [List.forall_mem_cons, ← check_eq_ok, ← ih, checkAll]
    cases a.check command inputCount <;> simp

namespace Command

theorem refsWithin_cons {inputCount start : Nat} {c : Command} {cs : List Command} :
    RefsWithin inputCount start (c :: cs) ↔
      (∀ a ∈ c.arguments, a.Within start inputCount) ∧ RefsWithin inputCount (start + 1) cs := by
  rw [RefsWithin, List.zipIdx_cons, List.forall_mem_cons]
  rfl

theorem refsWithin_append {inputCount start : Nat} {cs ds : List Command} :
    RefsWithin inputCount start (cs ++ ds) ↔
      RefsWithin inputCount start cs ∧ RefsWithin inputCount (start + cs.length) ds := by
  rw [RefsWithin, List.zipIdx_append, List.forall_mem_append]
  rfl

theorem checkAll_eq_ok {inputCount start : Nat} {cs : List Command} :
    checkAll inputCount start cs = .ok () ↔ RefsWithin inputCount start cs := by
  induction cs generalizing start with
  | nil => simp [checkAll, RefsWithin]
  | cons c cs ih =>
    rw [refsWithin_cons, ← Argument.checkAll_eq_ok, ← ih, checkAll]
    cases Argument.checkAll start inputCount c.arguments <;> simp

/-- When commands correspond one by one and each argument refers within bounds exactly when the one it
became does, so do all of them together. -/
theorem refsWithin_iff_of_maps {R : Nat → Argument → Argument → Prop} {n n' start start' : Nat}
    {cs cs' : List Command}
    (h : List.Forall₂ (fun entry c' => Maps (R entry.2) entry.1 c') (cs.zipIdx start) cs')
    (hR : ∀ k < cs.length, ∀ a b, R (start + k) a b →
      (a.Within (start + k) n ↔ b.Within (start' + k) n')) :
    RefsWithin n start cs ↔ RefsWithin n' start' cs' := by
  induction cs generalizing start start' cs' with
  | nil =>
    cases h
    simp [RefsWithin]
  | cons c cs ih =>
    rw [List.zipIdx_cons] at h
    cases h with
    | @cons _ c' _ cs' hc h =>
      have hhead : (∀ a ∈ c.arguments, a.Within start n) ↔
          ∀ b ∈ c'.arguments, b.Within start' n' := by
        have hR0 := hR 0 (Nat.succ_pos _)
        exact List.forall_mem_iff_of_forall₂ hc.arguments fun a b hab => hR0 a b hab
      rw [refsWithin_cons, refsWithin_cons, hhead]
      have htail : RefsWithin n (start + 1) cs ↔ RefsWithin n' (start' + 1) cs' := by
        refine ih h fun k hk a b hab => ?_
        have hRk := hR (k + 1) (Nat.succ_lt_succ hk) a b
        rw [← Nat.add_assoc, Nat.add_right_comm, ← Nat.add_assoc, Nat.add_right_comm start'] at hRk
        exact hRk hab
      rw [htail]

end Command

theorem Transaction.validate_eq_ok {tx : Transaction} :
    tx.validate = .ok () ↔ tx.inputs.length ≤ maxEntries ∧ tx.commands.length ≤ maxEntries ∧
      Command.RefsWithin tx.inputs.length 0 tx.commands := by
  rw [← Command.checkAll_eq_ok, validate]
  split_ifs with hinputs hcommands
  · simp only [false_iff, not_and]
    omega
  · simp only [false_iff, not_and]
    omega
  · exact ⟨fun h => ⟨Nat.not_lt.mp hinputs, Nat.not_lt.mp hcommands, h⟩, fun h => h.2.2⟩

theorem Transaction.ofValid_eq_ok {tx tx' : Transaction} :
    ofValid tx = .ok tx' ↔ tx.validate = .ok () ∧ tx = tx' := by
  rw [ofValid, Except.map_eq_ok]
  constructor
  · rintro ⟨⟨⟩, hvalid, heq⟩
    exact ⟨hvalid, heq⟩
  · rintro ⟨hvalid, heq⟩
    exact ⟨(), hvalid, heq⟩

end ObjectLedger
