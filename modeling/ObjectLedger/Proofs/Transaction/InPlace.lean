import Mathlib.Tactic.SplitIfs
import ObjectLedger.Transaction.Splice

/-!
# Edits in place

An edit in place writes step after step, so that one that fails half-way has left something behind. What
it makes of a transaction is read off its steps one by one. An edit that works on a copy leaves either
the transaction that it makes, which is valid, or nothing.
-/

namespace ObjectLedger

/-- A transaction after an edit; one that fails changes nothing. -/
def Transaction.after (tx : Transaction) (edit : Except BuildError Transaction) : Transaction :=
  match edit with
  | .ok tx' => tx'
  | .error _ => tx

namespace InPlace

variable {α : Type} {tx : Transaction}

/-! ### Step by step -/

@[simp] theorem outcome_modify (f : Transaction → Transaction) :
    outcome (modify f) tx = .ok (f tx) := rfl

@[simp] theorem outcome_get_bind (next : Transaction → InPlace α) :
    outcome (get >>= next) tx = outcome (next tx) tx := rfl

@[simp] theorem outcome_modify_bind (f : Transaction → Transaction) (next : Unit → InPlace α) :
    outcome (modify f >>= next) tx = outcome (next ()) (f tx) := rfl

@[simp] theorem outcome_ofExcept_bind {β : Type} (x : Except BuildError β) (next : β → InPlace α) :
    outcome (ofExcept x >>= next) tx = x >>= fun b => outcome (next b) tx := by
  cases x with
  | ok b => rfl
  | error e => rfl

/-! ### On a copy -/

theorem run_onCopy (edit : InPlace Unit) (tx : Transaction) :
    (onCopy edit).run tx = match edit.outcome tx >>= Transaction.ofValid with
      | .ok copy => .ok () copy
      | .error e => .error e tx := by
  unfold onCopy outcome Transaction.ofValid
  simp only [EStateM.run_bind, EStateM.run_get]
  cases edit.run tx with
  | error e copy => rfl
  | ok _ copy =>
    simp only [bind, Except.bind]
    cases copy.validate with
    | ok valid => rfl
    | error e => rfl

@[simp] theorem outcome_onCopy (edit : InPlace Unit) :
    (onCopy edit).outcome tx = edit.outcome tx >>= Transaction.ofValid := by
  rw [outcome, run_onCopy]
  cases (edit.outcome tx >>= Transaction.ofValid) with
  | ok copy => rfl
  | error e => rfl

/-- What an edit leaves behind is what it makes, or nothing when it fails. -/
def AllOrNothing (edit : InPlace α) : Prop := ∀ tx, edit.leaves tx = tx.after (edit.outcome tx)

theorem allOrNothing_throw (e : BuildError) : AllOrNothing (throw e : InPlace α) := fun _ => rfl

theorem allOrNothing_pure (a : α) : AllOrNothing (pure a : InPlace α) := fun _ => rfl

theorem AllOrNothing.get_bind {next : Transaction → InPlace α} (h : ∀ tx, AllOrNothing (next tx)) :
    AllOrNothing (get >>= next) := fun tx => h tx tx

theorem allOrNothing_onCopy (edit : InPlace Unit) : AllOrNothing (onCopy edit) := by
  intro tx
  rw [outcome_onCopy, leaves, run_onCopy]
  cases (edit.outcome tx >>= Transaction.ofValid) with
  | ok copy => rfl
  | error e => rfl

/-- An edit that writes before it fails is not. -/
example : ¬AllOrNothing (do
    modify fun tx => { tx with sender := some .zero }
    throw (.tooMany "inputs") : InPlace Unit) := by
  intro h
  have hsender := congrArg Transaction.sender (h .empty)
  cases hsender

end InPlace

namespace Transaction

theorem allOrNothing_mergeInPlace (index : Nat) (other : Transaction) :
    InPlace.AllOrNothing (mergeInPlace index other) := by
  refine InPlace.AllOrNothing.get_bind fun tx => ?_
  simp only
  split_ifs
  · exact InPlace.allOrNothing_throw _
  · exact InPlace.allOrNothing_pure _
  · exact InPlace.allOrNothing_throw _
  · exact InPlace.allOrNothing_onCopy _

theorem allOrNothing_replaceInPlace (index : Nat) (replacement : List Command)
    (result : Option Argument) :
    InPlace.AllOrNothing (replaceInPlace index replacement result) := by
  refine InPlace.AllOrNothing.get_bind fun tx => ?_
  simp only
  split_ifs
  · exact InPlace.allOrNothing_throw _
  · exact InPlace.allOrNothing_throw _
  · exact InPlace.allOrNothing_onCopy _

end Transaction

end ObjectLedger
