import ObjectLedger.Proofs.Resolve.Intents

/-!
# Which handlers are called

What handling intents comes to, call by call, for handlers that may do anything: fail, leave the intent
where it is, or put others in its place. The rules below have no bound on the number of calls; that a
handler has to leave fewer intents than it found is what makes an end of it.
-/

namespace ObjectLedger

/-! ### Rules -/

/-- A call of a handler: what it is given, and the world in which it starts. -/
structure IntentCall (σ : Type) where
  tx : Transaction
  index : Nat
  intent : Intent
  world : World σ

variable {σ : Type} {registry : IntentRegistry σ} {o : BuildOptions σ}

/-- The call is for the first intent of its transaction, at the index where that stands. -/
def IntentCall.ForFirst (call : IntentCall σ) : Prop :=
  ∃ front back, call.tx.commands = front ++ .intent call.intent :: back ∧
    front.length = call.index ∧ ∀ c ∈ front, Transaction.isIntent c = false

/-- The calls by which intents are handled one after the other, and what comes of them. -/
inductive Handling (registry : IntentRegistry σ) (o : BuildOptions σ) :
    Transaction → World σ → List (IntentCall σ) → Except BuildError Transaction × World σ → Prop
  | done {tx : Transaction} {w : World σ} (hnone : ∀ c ∈ tx.commands, Transaction.isIntent c = false) :
      Handling registry o tx w [] (.ok tx, w)
  | unknown {tx : Transaction} {w : World σ} {index : Nat} {i : Intent}
      (hfirst : IntentCall.ForFirst ⟨tx, index, i, w⟩) (hget : registry.get? i.name = none) :
      Handling registry o tx w [] (.error (.unregisteredIntent i.name), w)
  | failed {tx : Transaction} {w w' : World σ} {index : Nat} {i : Intent} {handler : IntentHandler σ}
      {e : BuildError} (hfirst : IntentCall.ForFirst ⟨tx, index, i, w⟩)
      (hget : registry.get? i.name = some handler)
      (hcall : (handler tx index i o).exec w = (.error e, w')) :
      Handling registry o tx w [⟨tx, index, i, w⟩] (.error e, w')
  | kept {tx next : Transaction} {w w' : World σ} {index : Nat} {i : Intent}
      {handler : IntentHandler σ} (hfirst : IntentCall.ForFirst ⟨tx, index, i, w⟩)
      (hget : registry.get? i.name = some handler)
      (hcall : (handler tx index i o).exec w = (.ok next, w'))
      (hcount : tx.intentCount ≤ next.intentCount) :
      Handling registry o tx w [⟨tx, index, i, w⟩] (.error (.intent i.name .notConsumed), w')
  | consumed {tx next : Transaction} {w w' : World σ} {index : Nat} {i : Intent}
      {handler : IntentHandler σ} {calls : List (IntentCall σ)}
      {outcome : Except BuildError Transaction × World σ}
      (hfirst : IntentCall.ForFirst ⟨tx, index, i, w⟩) (hget : registry.get? i.name = some handler)
      (hcall : (handler tx index i o).exec w = (.ok next, w'))
      (hcount : next.intentCount < tx.intentCount)
      (hrest : Handling registry o next w' calls outcome) :
      Handling registry o tx w (⟨tx, index, i, w⟩ :: calls) outcome

/-- The same, where each intent has to have a handler before the first one is called. -/
inductive CheckedHandling (registry : IntentRegistry σ) (o : BuildOptions σ) (tx : Transaction)
    (w : World σ) : List (IntentCall σ) → Except BuildError Transaction × World σ → Prop
  | refused {front back : List Command} {i : Intent} (hsplit : tx.commands = front ++ .intent i :: back)
      (hget : registry.get? i.name = none)
      (hfront : ∀ j, .intent j ∈ front → registry.get? j.name ≠ none) :
      CheckedHandling registry o tx w [] (.error (.unregisteredIntent i.name), w)
  | handled {calls : List (IntentCall σ)} {outcome : Except BuildError Transaction × World σ}
      (hall : ∀ i, .intent i ∈ tx.commands → registry.get? i.name ≠ none)
      (h : Handling registry o tx w calls outcome) : CheckedHandling registry o tx w calls outcome

/-! ### The first intent -/

namespace Transaction

variable {tx : Transaction} {w : World σ} {index : Nat} {i : Intent}

theorem firstIntentFrom_none {cs : List Command} {n : Nat} (h : ∀ c ∈ cs, isIntent c = false) :
    firstIntentFrom n cs = none := by
  have happend : firstIntentFrom n (cs ++ []) = firstIntentFrom (n + cs.length) [] :=
    firstIntentFrom_append h
  rwa [List.append_nil] at happend

theorem firstIntentFrom_split {front back : List Command} {n : Nat}
    (h : ∀ c ∈ front, isIntent c = false) :
    firstIntentFrom n (front ++ .intent i :: back) = some (n + front.length, i) :=
  firstIntentFrom_append h

theorem exists_first_intent (cs : List Command) :
    (∀ c ∈ cs, isIntent c = false) ∨
      ∃ front i back, cs = front ++ .intent i :: back ∧ ∀ c ∈ front, isIntent c = false := by
  induction cs with
  | nil => exact .inl (List.forall_mem_nil _)
  | cons c cs ih =>
    cases hc : isIntent c with
    | true =>
      cases c with
      | intent i => exact .inr ⟨[], i, cs, rfl, List.forall_mem_nil _⟩
      | _ => cases hc
    | false =>
      rcases ih with hnone | ⟨front, i, back, rfl, hfront⟩
      · exact .inl (List.forall_mem_cons.mpr ⟨hc, hnone⟩)
      · exact .inr ⟨c :: front, i, back, rfl, List.forall_mem_cons.mpr ⟨hc, hfront⟩⟩

theorem firstIntent?_eq_none :
    tx.firstIntent? = none ↔ ∀ c ∈ tx.commands, isIntent c = false := by
  refine ⟨fun h => ?_, firstIntentFrom_none⟩
  rcases exists_first_intent tx.commands with hnone | ⟨front, i, back, hsplit, hfront⟩
  · exact hnone
  · rw [firstIntent?, hsplit, firstIntentFrom_split hfront] at h
    cases h

theorem firstIntent?_eq_some :
    tx.firstIntent? = some (index, i) ↔ IntentCall.ForFirst ⟨tx, index, i, w⟩ := by
  constructor
  · intro h
    rcases exists_first_intent tx.commands with hnone | ⟨front, j, back, hsplit, hfront⟩
    · rw [firstIntent?_eq_none.mpr hnone] at h
      cases h
    · rw [firstIntent?, hsplit, firstIntentFrom_split hfront, Nat.zero_add] at h
      cases h
      exact ⟨front, back, hsplit, rfl, hfront⟩
  · rintro ⟨front, back, hsplit, hindex, hfront⟩
    rw [firstIntent?, hsplit, firstIntentFrom_split hfront, Nat.zero_add, hindex]

theorem intentCount_pos (h : tx.firstIntent? = some (index, i)) : 0 < tx.intentCount := by
  have hsome : ¬∀ c ∈ tx.commands, isIntent c = false := by
    rw [← firstIntent?_eq_none, h]
    exact Option.some_ne_none _
  refine Nat.pos_of_ne_zero fun hzero => hsome fun c hc => ?_
  have hcount := List.countP_eq_zero.mp hzero c hc
  rwa [Bool.not_eq_true] at hcount

end Transaction

/-! ### The loop follows the rules -/

/-- As many steps of fuel as there are intents are enough, whatever the handlers do, and each call takes
one intent. -/
theorem handling_resolveIntentsWithin (fuel : Nat) :
    ∀ (tx : Transaction) (w : World σ), tx.intentCount ≤ fuel →
      ∃ calls, Handling registry o tx w calls ((resolveIntentsWithin registry o fuel tx).exec w) ∧
        calls.length ≤ tx.intentCount := by
  induction fuel with
  | zero =>
    intro tx w hfuel
    unfold resolveIntentsWithin
    cases hfirst : tx.firstIntent? with
    | none => exact ⟨[], .done (Transaction.firstIntent?_eq_none.mp hfirst), Nat.zero_le _⟩
    | some first =>
      obtain ⟨index, i⟩ := first
      have hpos := Transaction.intentCount_pos hfirst
      omega
  | succ fuel ih =>
    intro tx w hfuel
    unfold resolveIntentsWithin
    cases hfirst : tx.firstIntent? with
    | none => exact ⟨[], .done (Transaction.firstIntent?_eq_none.mp hfirst), Nat.zero_le _⟩
    | some first =>
      obtain ⟨index, i⟩ := first
      have hcall : IntentCall.ForFirst ⟨tx, index, i, w⟩ := Transaction.firstIntent?_eq_some.mp hfirst
      have hpos := Transaction.intentCount_pos hfirst
      simp only
      cases hget : registry.get? i.name with
      | none => exact ⟨[], .unknown hcall hget, Nat.zero_le _⟩
      | some handler =>
        simp only [Build.exec_bind]
        rcases hrun : (handler tx index i o).exec w with ⟨e | next, w'⟩
        · exact ⟨[_], .failed hcall hget hrun, hpos⟩
        · simp only
          by_cases hcount : tx.intentCount ≤ next.intentCount
          · rw [if_pos hcount]
            exact ⟨[_], .kept hcall hget hrun hcount, hpos⟩
          · rw [if_neg hcount]
            obtain ⟨calls, hrest, hlength⟩ := ih next w' (by omega)
            refine ⟨_ :: calls, .consumed hcall hget hrun (by omega) hrest, ?_⟩
            rw [List.length_cons]
            omega

section

variable {tx : Transaction} {w : World σ} {calls calls' : List (IntentCall σ)}
  {outcome outcome' : Except BuildError Transaction × World σ}

theorem IntentCall.ForFirst.unique {index index' : Nat} {i i' : Intent}
    (h : IntentCall.ForFirst ⟨tx, index, i, w⟩) (h' : IntentCall.ForFirst ⟨tx, index', i', w⟩) :
    index = index' ∧ i = i' := by
  have hfirst := Transaction.firstIntent?_eq_some.mpr h
  rw [Transaction.firstIntent?_eq_some.mpr h', Option.some.injEq, Prod.mk.injEq] at hfirst
  exact ⟨hfirst.1.symm, hfirst.2.symm⟩

theorem IntentCall.ForFirst.not_none {index : Nat} {i : Intent}
    (h : IntentCall.ForFirst ⟨tx, index, i, w⟩) :
    ¬∀ c ∈ tx.commands, Transaction.isIntent c = false := by
  intro hnone
  have hfirst := Transaction.firstIntent?_eq_some.mpr h
  rw [Transaction.firstIntent?_eq_none.mpr hnone] at hfirst
  cases hfirst

theorem Handling.unique (h : Handling registry o tx w calls outcome)
    (h' : Handling registry o tx w calls' outcome') : calls' = calls ∧ outcome' = outcome := by
  have hsame := @IntentCall.ForFirst.unique σ
  have hno := @IntentCall.ForFirst.not_none σ
  -- Both rules speak of the same intent, handler and answer, or one of them finds no intent at all.
  induction h generalizing calls' outcome' with
  | done hnone => cases h' <;> grind
  | unknown hfirst hget => cases h' <;> grind
  | failed hfirst hget hcall => cases h' <;> grind
  | kept hfirst hget hcall hcount => cases h' <;> grind
  | consumed hfirst hget hcall hcount hrest ih => cases h' <;> grind

theorem Handling.forFirst (h : Handling registry o tx w calls outcome) :
    ∀ call ∈ calls, call.ForFirst := by
  induction h with
  | done | unknown => exact List.forall_mem_nil _
  | failed hfirst | kept hfirst => exact List.forall_mem_singleton.mpr hfirst
  | consumed hfirst _ _ _ _ ih => exact List.forall_mem_cons.mpr ⟨hfirst, ih⟩

theorem Handling.isIntent_eq_false (h : Handling registry o tx w calls outcome) :
    ∀ tx', outcome.1 = .ok tx' → ∀ c ∈ tx'.commands, Transaction.isIntent c = false := by
  induction h with
  | done hnone =>
    rintro tx' ⟨⟩
    exact hnone
  | unknown | failed | kept => exact nofun
  | consumed _ _ _ _ _ ih => exact ih

/-! ### The check in front -/

theorem contains_eq_true {name : String} :
    registry.contains name = true ↔ registry.get? name ≠ none :=
  Option.isSome_iff_ne_none

theorem unregistered?_eq_none :
    tx.unregistered? registry = none ↔ ∀ i, .intent i ∈ tx.commands → registry.get? i.name ≠ none := by
  rw [Transaction.unregistered?, List.findSome?_eq_none_iff]
  constructor
  · intro h i hi
    have hi := h _ hi
    simpa [contains_eq_true] using hi
  · intro h c hc
    cases c with
    | intent i => simp [contains_eq_true, h i hc]
    | _ => rfl

theorem unregistered?_eq_some {name : String} :
    tx.unregistered? registry = some name ↔
      ∃ front i back, tx.commands = front ++ .intent i :: back ∧ registry.get? i.name = none ∧
        (∀ j, .intent j ∈ front → registry.get? j.name ≠ none) ∧ i.name = name := by
  have hnone := fun front => @unregistered?_eq_none σ registry { tx with commands := front }
  constructor
  · intro h
    obtain ⟨front, c, back, hsplit, hname, hfront⟩ := List.findSome?_eq_some_iff.mp h
    cases c with
    | intent i =>
      by_cases hget : registry.contains i.name = true
      · simp [hget] at hname
      · refine ⟨front, i, back, hsplit, not_not.mp (mt contains_eq_true.mpr hget), ?_, ?_⟩
        · exact (hnone front).mp (List.findSome?_eq_none_iff.mpr hfront)
        · simpa [hget] using hname
    | _ => cases hname
  · rintro ⟨front, i, back, hsplit, hget, hfront, rfl⟩
    refine List.findSome?_eq_some_iff.mpr ⟨front, .intent i, back, hsplit, ?_, ?_⟩
    · simp [IntentRegistry.contains, hget]
    · exact List.findSome?_eq_none_iff.mp ((hnone front).mpr hfront)

theorem checkedHandling_resolveIntents (registry : IntentRegistry σ) (o : BuildOptions σ)
    (tx : Transaction) (w : World σ) :
    ∃ calls, CheckedHandling registry o tx w calls ((resolveIntents registry o tx).exec w) ∧
      calls.length ≤ tx.intentCount := by
  unfold resolveIntents
  cases hcheck : tx.unregistered? registry with
  | some name =>
    obtain ⟨front, i, back, hsplit, hget, hfront, rfl⟩ := unregistered?_eq_some.mp hcheck
    exact ⟨[], .refused hsplit hget hfront, Nat.zero_le _⟩
  | none =>
    obtain ⟨calls, h, hlength⟩ := handling_resolveIntentsWithin tx.intentCount tx w (Nat.le_refl _)
    exact ⟨calls, .handled (unregistered?_eq_none.mp hcheck) h, hlength⟩

theorem CheckedHandling.unique (h : CheckedHandling registry o tx w calls outcome)
    (h' : CheckedHandling registry o tx w calls' outcome') : calls' = calls ∧ outcome' = outcome := by
  have hmem : ∀ {front back : List Command} {i : Intent}, tx.commands = front ++ .intent i :: back →
      .intent i ∈ tx.commands := by
    intro front back i hsplit
    rw [hsplit]
    exact List.mem_append_right _ List.mem_cons_self
  cases h with
  | @refused front back i hsplit hget hfront =>
    cases h' with
    | @refused front' back' j hsplit' hget' hfront' =>
      have hfirst := unregistered?_eq_some.mpr ⟨front, i, back, hsplit, hget, hfront, rfl⟩
      have hfirst' := unregistered?_eq_some.mpr ⟨front', j, back', hsplit', hget', hfront', rfl⟩
      rw [Option.some.inj (hfirst'.symm.trans hfirst)]
      exact ⟨rfl, rfl⟩
    | handled hall => exact absurd hget (hall i (hmem hsplit))
  | handled hall h =>
    cases h' with
    | @refused _ _ j hsplit' hget' => exact absurd hget' (hall j (hmem hsplit'))
    | handled _ h' => exact h.unique h'

end

/-- **Each handler is called for the first intent that is left, and there is an end of it.** By the rules
there is exactly one list of calls, with one outcome, and that is the outcome of resolving the intents. The
calls are as many as the intents at the start at most. When they succeed no intent is left, and when an
intent at the start has no handler none is called. -/
theorem calls_of_resolveIntents (registry : IntentRegistry σ) (o : BuildOptions σ) (tx : Transaction)
    (w : World σ) :
    ∃ calls,
      (∀ calls' outcome, CheckedHandling registry o tx w calls' outcome ↔
        calls' = calls ∧ outcome = (resolveIntents registry o tx).exec w) ∧
      calls.length ≤ tx.intentCount ∧ (∀ call ∈ calls, call.ForFirst) ∧
      (∀ tx' w', (resolveIntents registry o tx).exec w = (.ok tx', w') →
        ∀ c ∈ tx'.commands, Transaction.isIntent c = false) ∧
      ((∃ i, .intent i ∈ tx.commands ∧ registry.get? i.name = none) →
        calls = [] ∧ ∃ i, .intent i ∈ tx.commands ∧ registry.get? i.name = none ∧
          (resolveIntents registry o tx).exec w = (.error (.unregisteredIntent i.name), w)) := by
  obtain ⟨calls, h, hlength⟩ := checkedHandling_resolveIntents registry o tx w
  refine ⟨calls, fun calls' outcome => ⟨h.unique, ?_⟩, hlength, ?_⟩
  · rintro ⟨rfl, rfl⟩
    exact h
  generalize (resolveIntents registry o tx).exec w = outcome at h ⊢
  cases h with
  | @refused front back i hsplit hget hfront =>
    refine ⟨List.forall_mem_nil _, fun tx' w' hok => ?_, fun _ => ⟨rfl, i, ?_, hget, rfl⟩⟩
    · cases hok
    · rw [hsplit]
      exact List.mem_append_right _ List.mem_cons_self
  | handled hall h =>
    refine ⟨h.forFirst, fun tx' w' hok => h.isIntent_eq_false tx' (by rw [hok]), ?_⟩
    rintro ⟨i, hi, hget⟩
    exact absurd hget (hall i hi)

end ObjectLedger
