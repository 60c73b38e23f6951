import ObjectLedger.Proofs.Transaction.References

/-!
# Rewriting the arguments of a command up to a fault

A command lists its arguments by one traversal and rewrites them by another one. Both visit the same
arguments in the same order, so rewriting a command by a function with a state is rewriting the list of its
arguments, and all else in the command stays. A function that may fail therefore stops on the command where
it stops on the list: the arguments in front are rewritten, the one at fault is as the function left it, and
those behind it are not touched.
-/

namespace ObjectLedger

/-! ### Mapping a list with a state -/

section

variable {α β τ : Type} {g : α → StateM τ β}

theorem run_mapM_cons (x : α) (xs : List α) (t : τ) : ((x :: xs).mapM g).run t =
    (((g x).run t).1 :: ((xs.mapM g).run ((g x).run t).2).1,
      ((xs.mapM g).run ((g x).run t).2).2) := by
  rw [List.mapM_cons]
  rfl

theorem run_mapM_append (xs ys : List α) (t : τ) : ((xs ++ ys).mapM g).run t =
    (((xs.mapM g).run t).1 ++ ((ys.mapM g).run ((xs.mapM g).run t).2).1,
      ((ys.mapM g).run ((xs.mapM g).run t).2).2) := by
  rw [List.mapM_append]
  rfl

theorem forall₂_run_mapM (xs : List α) (t : τ) :
    List.Forall₂ (fun _ _ => True) xs ((xs.mapM g).run t).1 := by
  induction xs generalizing t with
  | nil => exact .nil
  | cons x xs ih =>
    rw [run_mapM_cons]
    exact .cons trivial (ih _)

end

namespace Command

/-! ### The two traversals -/

/-- The second command is the first one with as many arguments in place of its own, under the same names
where they have names. -/
def SameButArguments (c c' : Command) : Prop := Maps (fun _ _ => True) c c'

section

variable {τ : Type} {g : Argument → StateM τ Argument}

def mapEntry (g : Argument → StateM τ Argument) (entry : String × List Argument) :
    StateM τ (String × List Argument) := do
  return (entry.1, ← entry.2.mapM g)

theorem run_mapM_entries (inputs : List (String × List Argument)) (t : τ) :
    ((inputs.flatMap (·.2)).mapM g).run t =
        (((inputs.mapM (mapEntry g)).run t).1.flatMap (·.2), ((inputs.mapM (mapEntry g)).run t).2) ∧
      List.Forall₂ (fun x y => x.1 = y.1 ∧ List.Forall₂ (fun _ _ => True) x.2 y.2) inputs
        ((inputs.mapM (mapEntry g)).run t).1 := by
  induction inputs generalizing t with
  | nil => exact ⟨rfl, .nil⟩
  | cons entry inputs ih =>
    obtain ⟨harguments, hsame⟩ := ih ((entry.2.mapM g).run t).2
    have hentry : (mapEntry g entry).run t =
        ((entry.1, ((entry.2.mapM g).run t).1), ((entry.2.mapM g).run t).2) := rfl
    rw [List.flatMap_cons, run_mapM_append, run_mapM_cons, hentry, harguments]
    exact ⟨rfl, .cons ⟨rfl, forall₂_run_mapM entry.2 t⟩ hsame⟩

/-- **Mapping a command is mapping the list of its arguments.** -/
theorem run_mapArguments (c : Command) (t : τ) :
    (c.arguments.mapM g).run t =
        (((c.mapArguments g).run t).1.arguments, ((c.mapArguments g).run t).2) ∧
      c.SameButArguments ((c.mapArguments g).run t).1 := by
  cases c with
  | moveCall call => exact ⟨rfl, .moveCall (forall₂_run_mapM _ t)⟩
  | transferObjects objects recipient =>
    refine ⟨?_, .transferObjects (forall₂_run_mapM objects t) trivial⟩
    rw [arguments, run_mapM_append, run_mapM_cons]
    rfl
  | splitCoins coin amounts =>
    exact ⟨run_mapM_cons coin amounts t, .splitCoins trivial (forall₂_run_mapM amounts _)⟩
  | mergeCoins destination sources =>
    exact ⟨run_mapM_cons destination sources t, .mergeCoins trivial (forall₂_run_mapM sources _)⟩
  | publish modules dependencies => exact ⟨rfl, .publish modules dependencies⟩
  | makeMoveVec elementType elements =>
    exact ⟨rfl, .makeMoveVec elementType (forall₂_run_mapM elements t)⟩
  | upgrade modules dependencies package ticket =>
    exact ⟨run_mapM_cons ticket [] t, .upgrade modules dependencies package trivial⟩
  | intent i =>
    obtain ⟨harguments, hsame⟩ := run_mapM_entries (g := g) i.inputs t
    exact ⟨harguments, .intent hsame⟩

end

/-! ### Up to the first fault -/

variable {σ ε : Type} {f : Argument → StateM σ (Argument × Option ε)}

/-- The function succeeds on arguments one after the other, and gives others. -/
inductive Succeeds (f : Argument → StateM σ (Argument × Option ε)) :
    List Argument → σ → List Argument → σ → Prop
  | nil (s : σ) : Succeeds f [] s [] s
  | cons {a b : Argument} {as bs : List Argument} {s s₁ s' : σ}
      (h : (f a).run s = ((b, none), s₁)) (hrest : Succeeds f as s₁ bs s') :
      Succeeds f (a :: as) s (b :: bs) s'

theorem succeeds_or_fails (f : Argument → StateM σ (Argument × Option ε)) (as : List Argument)
    (s : σ) : (∃ bs s', Succeeds f as s bs s') ∨
      ∃ front a back front' b s₁ s' e, as = front ++ a :: back ∧
        Succeeds f front s front' s₁ ∧ (f a).run s₁ = ((b, some e), s') := by
  induction as generalizing s with
  | nil => exact .inl ⟨[], s, .nil s⟩
  | cons a as ih =>
    rcases ha : (f a).run s with ⟨⟨b, _ | e⟩, s₁⟩
    · rcases ih s₁ with ⟨bs, s', h⟩ | ⟨front, a', back, front', b', s₂, s', e, rfl, h, ha'⟩
      · exact .inl ⟨b :: bs, s', .cons ha h⟩
      · exact .inr ⟨a :: front, a', back, b :: front', b', s₂, s', e, rfl, .cons ha h, ha'⟩
    · exact .inr ⟨[], a, as, [], b, s, s₁, e, rfl, .nil s, ha⟩

theorem run_stepUntil {a b : Argument} {s s' : σ} {fault : Option ε}
    (h : (f a).run s = ((b, fault), s')) : (stepUntil f a).run (s, none) = (b, s', fault) := by
  have hstep : (stepUntil f a).run (s, none) =
      (((f a).run s).1.1, ((f a).run s).2, ((f a).run s).1.2) := rfl
  rw [hstep, h]

theorem run_mapM_stepUntil_of_fault (as : List Argument) (s : σ) (e : ε) :
    (as.mapM (stepUntil f)).run (s, some e) = (as, s, some e) := by
  induction as with
  | nil => rfl
  | cons a as ih =>
    have hstep : (stepUntil f a).run (s, some e) = (a, s, some e) := rfl
    rw [run_mapM_cons, hstep, ih]

theorem Succeeds.run_mapM {as bs : List Argument} {s s' : σ} (h : Succeeds f as s bs s') :
    (as.mapM (stepUntil f)).run (s, none) = (bs, s', none) := by
  induction h with
  | nil => rfl
  | cons ha _ ih => rw [run_mapM_cons, run_stepUntil ha, ih]

theorem Succeeds.run_mapM_of_fault {front front' : List Argument} {a b : Argument} {s s₁ s' : σ} {e : ε}
    (h : Succeeds f front s front' s₁) (ha : (f a).run s₁ = ((b, some e), s'))
    (back : List Argument) :
    ((front ++ a :: back).mapM (stepUntil f)).run (s, none) =
      (front' ++ b :: back, s', some e) := by
  rw [run_mapM_append, h.run_mapM, run_mapM_cons, run_stepUntil ha,
    run_mapM_stepUntil_of_fault]

theorem exists_tryMapArguments {c : Command} {bs : List Argument} {s s' : σ} {fault : Option ε}
    (h : (c.arguments.mapM (stepUntil f)).run (s, none) = (bs, s', fault)) :
    ∃ c', c.tryMapArguments f s = (c', s', fault) ∧ c'.arguments = bs ∧ c.SameButArguments c' := by
  obtain ⟨hrun, hsame⟩ := run_mapArguments (g := stepUntil f) c (s, none)
  rw [h, Prod.mk.injEq] at hrun
  exact ⟨_, Prod.ext rfl hrun.2.symm, hrun.1.symm, hsame⟩

/-- **A rewriting of the arguments goes as far as its function.** On a command of any kind and by any
function with a state: where the function succeeds on the arguments one after the other, in the order in
which the command lists them, these are what it gave; where it first fails at one, those in front of that one
are what it gave, that one is as it was left, and those behind it are as they were. All else in the command
stays, and the function is not asked again behind its fault. One of the two is always the case. -/
theorem tryMapArguments_stops (f : Argument → StateM σ (Argument × Option ε)) (c : Command) (s : σ) :
    (∀ bs s', Succeeds f c.arguments s bs s' →
      ∃ c', c.tryMapArguments f s = (c', s', none) ∧ c'.arguments = bs ∧ c.SameButArguments c') ∧
    (∀ front a back front' b s₁ s' e, c.arguments = front ++ a :: back →
      Succeeds f front s front' s₁ → (f a).run s₁ = ((b, some e), s') →
      ∃ c', c.tryMapArguments f s = (c', s', some e) ∧ c'.arguments = front' ++ b :: back ∧
        c.SameButArguments c') ∧
    ((∃ bs s', Succeeds f c.arguments s bs s') ∨
      ∃ front a back front' b s₁ s' e, c.arguments = front ++ a :: back ∧
        Succeeds f front s front' s₁ ∧ (f a).run s₁ = ((b, some e), s')) := by
  refine ⟨fun bs s' h => exists_tryMapArguments h.run_mapM, ?_, succeeds_or_fails f c.arguments s⟩
  intro front a back front' b s₁ s' e harguments h ha
  refine exists_tryMapArguments ?_
  rw [harguments]
  exact h.run_mapM_of_fault ha back

/-- Moves inputs up by ten and counts them. At anything else it fails, and leaves the paying coin. -/
def raised : Argument → StateM Nat (Argument × Option String)
  | .input i => fun n => ((.input (i + 10), none), n + 1)
  | _ => fun n => ((.feeObject, some "not an input"), n)

/-- An intent with arguments under two names, the third of which is no input. -/
def swap : Command :=
  .intent { name := "Swap", inputs := [("give", [.input 0, .input 1]), ("take", [.result 3, .input 2])]
            data := .null }

/-- The recipient, which stands behind the objects, is rewritten last. In an intent the fault under the
second name leaves what stands behind it. -/
theorem tryMapArguments_stops_swap :
    (Succeeds raised [.input 0, .input 2] 0 [.input 10, .input 12] 2 ∧
      ∃ c', (transferObjects [.input 0] (.input 2)).tryMapArguments raised 0 = (c', 2, none) ∧
        c'.arguments = [.input 10, .input 12] ∧
        (transferObjects [.input 0] (.input 2)).SameButArguments c') ∧
    Succeeds raised [.input 0, .input 1] 0 [.input 10, .input 11] 2 ∧
      (raised (.result 3)).run 2 = ((.feeObject, some "not an input"), 2) ∧
      ∃ c', swap.tryMapArguments raised 0 = (c', 2, some "not an input") ∧
        c'.arguments = [.input 10, .input 11, .feeObject, .input 2] ∧ swap.SameButArguments c' := by
  have hboth : Succeeds raised [.input 0, .input 2] 0 [.input 10, .input 12] 2 :=
    .cons rfl (.cons rfl (.nil 2))
  have hfront : Succeeds raised [.input 0, .input 1] 0 [.input 10, .input 11] 2 :=
    .cons rfl (.cons rfl (.nil 2))
  have hfault : (raised (.result 3)).run 2 = ((.feeObject, some "not an input"), 2) := rfl
  exact ⟨⟨hboth, (tryMapArguments_stops raised _ 0).1 _ _ hboth⟩, hfront, hfault,
    (tryMapArguments_stops raised swap 0).2.1 _ _ [.input 2] _ _ _ _ _ rfl hfront hfault⟩

end Command

end ObjectLedger
