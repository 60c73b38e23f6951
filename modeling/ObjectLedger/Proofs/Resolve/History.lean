import ObjectLedger.Proofs.Resolve.Pipeline
import ObjectLedger.Proofs.Transaction.Edits

/-!
# Histories of a transaction

A transaction is edited, and handed to pipelines of the built-in stages. Stages write inputs and commands
on their own, without the checks of the edits, and yet preserve what the edits preserve. So after any
history the transaction is valid and repeats no input, and each argument that was ever given for an input
still names it.
-/

namespace ObjectLedger

open Transaction (Edit Edited Extends)

variable {σ : Type} {o : BuildOptions σ} {holds : σ → Prop} {tx tx' : Transaction} {w w' : World σ}

/-! ### Handlers -/

/-- A handler works by edits alone: whatever it makes of a valid transaction comes from it by edits. -/
def IntentHandler.Edits (handler : IntentHandler σ) : Prop :=
  ∀ tx index i o w next w', tx.validate = .ok () →
    (handler tx index i o).exec w = (.ok next, w') → tx.Edited next

theorem edits_coinHandler : IntentHandler.Edits (coinHandler (σ := σ)) := by
  intro tx index i o w next w' hvalid h
  have hlen := (Transaction.validate_eq_ok.mp hvalid).1
  obtain ⟨r, mid, commands, t, -, hadds, -, hreplace⟩ := coinHandler_eq_ok hlen h
  exact (Transaction.edited_of_adds hadds).trans (Transaction.edited_of_replaceCommand hreplace)

theorem edits_callbackHandler (call : Json → σ → Except String Unit × σ) :
    IntentHandler.Edits (callbackHandler call) := by
  intro tx index i o w next w' _ h
  exact Transaction.edited_of_replaceCommand (callbackHandler_eq_ok h)

namespace IntentRegistry

/-- All handlers of a registry work by edits. -/
def Edits (registry : IntentRegistry σ) : Prop :=
  ∀ name handler, registry.get? name = some handler → handler.Edits

end IntentRegistry

/-! ### Stages -/

/-- A built-in stage, whose handlers, if it has any, work by edits. -/
def Stage.BuiltIn : Stage σ → Prop
  | intents registry => registry.Edits
  | custom .. => False
  | _ => True

theorem extends_resolveNames {batch : Nat} {memory memory' : NameMemory}
    (h : resolveNames batch o memory tx w = (.ok tx', memory', w')) : tx.Extends tx' := by
  obtain ⟨-, -, commands, haddressed, rfl⟩ := resolveNames_eq_ok h
  exact Transaction.extends_of_keys rfl fun hvalid => Pipeline.validate_of_addressed hvalid haddressed

theorem extends_resolveIntents {registry : IntentRegistry σ} (hregistry : registry.Edits)
    (h : (resolveIntents registry o tx).exec w = (.ok tx', w')) : tx.Extends tx' := by
  intro hformed
  -- The handlers need valid transactions, so validity goes through the loop along with the edits.
  have hedited : tx'.Formed ∧ tx.Edited tx' := by
    refine (resolveIntents_induct (P := fun cur _ => cur.Formed ∧ tx.Edited cur)
      (fun cur index i handler next w w' hcur _ hhandler hnext => ?_) ⟨hformed, .refl⟩ h).1
    have hstep := hregistry _ _ hhandler cur index i o w next w' hcur.1.valid hnext
    exact ⟨(hstep.extends hcur.1).1, hcur.2.trans hstep⟩
  exact hedited.2.extends hformed

theorem extends_resolveObjects {batch : Nat} (ho : o.Keyed holds) (hkeeps : o.Keeps holds)
    (hw : holds w.peer) (h : (resolveObjects batch o tx).exec w = (.ok tx', w')) : tx.Extends tx' := by
  obtain ⟨inputs, rfl, hsame⟩ := resolveObjects_eq_ok h
  have hkeys := hsame holds ho hkeeps hw
  have hlength : inputs.length = tx.inputs.length := by
    simpa [Input.keys] using congrArg List.length hkeys
  refine Transaction.extends_of_keys hkeys fun hvalid => ?_
  rw [Transaction.validate_eq_ok] at hvalid ⊢
  rw [hlength]
  exact hvalid

theorem extends_resolveGas {maxCoins : Nat}
    (h : (resolveGas maxCoins o tx).exec w = (.ok tx', w')) : tx.Extends tx' := by
  rcases resolveGas_eq_ok h with ⟨-, rfl⟩ | ⟨_, gas, rfl, -⟩
  · exact .refl _
  · exact Transaction.extends_of_keys rfl id

/-- **One stage.** -/
theorem Stage.extends_run {s s' : Stage σ} {flow : Flow} (hs : s.BuiltIn) (ho : o.Keyed holds)
    (hkeeps : o.Keeps holds) (hw : holds w.peer) (h : s.run o tx w = (.ok (flow, tx'), s', w')) :
    flow = .proceed ∧ tx.Extends tx' := by
  cases s with
  | namedPackages memory batch =>
    obtain ⟨hflow, memory', hnames⟩ := Pipeline.namedPackages_run_eq_ok h
    exact ⟨hflow, extends_resolveNames hnames⟩
  | intents registry =>
    obtain ⟨hflow, hintents⟩ := Pipeline.exec_run_eq_ok h
    exact ⟨hflow, extends_resolveIntents hs hintents⟩
  | objects batch =>
    obtain ⟨hflow, hobjects⟩ := Pipeline.exec_run_eq_ok h
    exact ⟨hflow, extends_resolveObjects ho hkeeps hw hobjects⟩
  | gas maxCoins =>
    obtain ⟨hflow, hgas⟩ := Pipeline.exec_run_eq_ok h
    exact ⟨hflow, extends_resolveGas hgas⟩
  | custom name resolve => exact hs.elim

namespace Pipeline

/-- Where a pipeline may run: its stages are built in, and while some condition on the others holds, which
neither an answer nor a handler breaks, each answer is about the object that was asked for. -/
structure Lawful (p : Pipeline σ) (o : BuildOptions σ) (holds : σ → Prop) (peer : σ) : Prop where
  builtIn : ∀ s ∈ p.stages, s.BuiltIn
  kept : ∀ s ∈ p.stages, s.Keeps holds
  keyed : o.Keyed holds
  keeps : o.Keeps holds
  peer : holds peer

theorem extends_runStages {stages : List (Stage σ)} (hstages : ∀ s ∈ stages, s.BuiltIn ∧ s.Keeps holds)
    (ho : o.Keyed holds) (hkeeps : o.Keeps holds) (hw : holds w.peer)
    (h : (runStages o stages tx w).1 = .ok tx') : tx.Extends tx' := by
  induction stages generalizing tx w with
  | nil =>
    cases h
    exact .refl _
  | cons s rest ih =>
    obtain ⟨⟨hs, hkept⟩, hrest⟩ := List.forall_mem_cons.mp hstages
    obtain ⟨flow, mid, s', w', hrun, h⟩ := runStages_cons_eq_ok h
    obtain ⟨hflow, hmid⟩ := Stage.extends_run hs ho hkeeps hw hrun
    exact hmid.trans (ih hrest (hkept.of_run hkeeps hrun hw) (h hflow))

theorem extends_run {p : Pipeline σ} (hp : p.Lawful o holds w.peer) (h : (p.run o tx w).1 = .ok tx') :
    tx.Extends tx' := by
  obtain ⟨w', hw', hrun, -⟩ := run_eq_ok h
  exact extends_runStages (fun s hs => ⟨hp.builtIn s hs, hp.kept s hs⟩) hp.keyed hp.keeps
    (hw' ▸ hp.peer) hrun

theorem extends_after_run {p : Pipeline σ} (hp : p.Lawful o holds w.peer) :
    tx.Extends (tx.after (p.run o tx w).1) := by
  cases hrun : (p.run o tx w).1 with
  | error e => exact .refl tx
  | ok tx' => exact extends_run hp hrun

theorem build_transaction (p : Pipeline σ) :
    (p.build o tx w).transaction = tx.after (p.run o tx w).1 := by
  unfold build
  rcases p.run o tx w with ⟨e | resolved, p', w'⟩ <;> rfl

end Pipeline

/-! ### Histories -/

/-- What may happen to a transaction: an edit, a run of a pipeline, or a build, each in a world of its
own. -/
inductive Action (σ : Type) where
  | edit (e : Edit)
  | run (p : Pipeline σ) (o : BuildOptions σ) (w : World σ)
  | build (p : Pipeline σ) (o : BuildOptions σ) (w : World σ)

namespace Action

/-- Pipelines have built-in stages, and as long as they ask, lookups and caches answer about the objects
that they are asked for. -/
def Lawful : Action σ → Prop
  | edit _ => True
  | run p o w | build p o w => ∃ holds, p.Lawful o holds w.peer

/-- The transaction afterwards; what fails changes nothing. -/
def perform (tx : Transaction) : Action σ → Transaction
  | edit e => tx.after ((e.apply tx).map (·.2))
  | run p o w => tx.after (p.run o tx w).1
  | build p o w => (p.build o tx w).transaction

def performAll (tx : Transaction) (history : List (Action σ)) : Transaction :=
  history.foldl perform tx

theorem performAll_append_cons (front back : List (Action σ)) (action : Action σ) :
    performAll tx (front ++ action :: back) =
      performAll (action.perform (performAll tx front)) back := by
  rw [performAll, List.foldl_append, List.foldl_cons]
  rfl

theorem perform_edit_of_eq_ok {e : Edit} {a : Option Argument} (h : e.apply tx = .ok (a, tx')) :
    (edit e : Action σ).perform tx = tx' := by
  rw [perform, h]
  rfl

/-- **One step of a history.** -/
theorem extends_perform {action : Action σ} (h : action.Lawful) : tx.Extends (action.perform tx) := by
  cases action with
  | edit e =>
    cases happly : e.apply tx with
    | error fault =>
      rw [perform, happly]
      exact .refl tx
    | ok r =>
      rw [perform_edit_of_eq_ok happly]
      exact Edit.extends_apply happly
  | run p o w =>
    obtain ⟨holds, hp⟩ := h
    exact Pipeline.extends_after_run hp
  | build p o w =>
    obtain ⟨holds, hp⟩ := h
    rw [perform, Pipeline.build_transaction]
    exact Pipeline.extends_after_run hp

/-- **A whole history.** -/
theorem extends_performAll {history : List (Action σ)} (h : ∀ action ∈ history, action.Lawful) :
    tx.Extends (performAll tx history) := by
  induction history generalizing tx with
  | nil => exact .refl tx
  | cons action history ih =>
    obtain ⟨haction, hhistory⟩ := List.forall_mem_cons.mp h
    exact (extends_perform haction).trans (ih hhistory)

theorem slot_of_performAll {front back : List (Action σ)} {e : Edit} {x : Input}
    {a : Option Argument} (hformed : tx.Formed)
    (h : ∀ action ∈ front ++ edit e :: back, action.Lawful) (hx : e.input? = some x)
    (happly : e.apply (performAll tx front) = .ok (a, tx')) :
    ∃ slot y, a = some (.input slot) ∧
      (performAll tx (front ++ edit e :: back)).inputs[slot.toNat]? = some y ∧ y.key = x.key := by
  obtain ⟨hfront, hback⟩ := List.forall_mem_append.mp h
  have hbefore := (extends_performAll hfront hformed).1
  have hafter := (Edit.extends_apply happly hbefore).1
  obtain ⟨slot, rfl, hslot⟩ := Edit.slot_of_input? hbefore hx happly
  have hrest := (extends_performAll (List.forall_mem_cons.mp hback).2 hafter).2
  obtain ⟨y, hy, hkey⟩ := Input.keys_getElem?_eq_some.mp (hrest.getElem?_eq_some hslot)
  refine ⟨slot, y, rfl, ?_, hkey⟩
  rw [performAll_append_cons, perform_edit_of_eq_ok happly]
  exact hy

end Action

/-! ### Main statement -/

/-- Where a history may start: with nothing, or with data that were accepted and repeat no input. -/
def Transaction.Starts (tx : Transaction) : Prop :=
  tx = .empty ∨ ∃ data, ofValid data = .ok tx ∧ (Input.keys data.inputs).Nodup

theorem Transaction.Starts.formed (h : tx.Starts) : tx.Formed := by
  rcases h with rfl | ⟨data, hdata, hdistinct⟩
  · exact ⟨rfl, List.nodup_nil⟩
  · obtain ⟨hvalid, rfl⟩ := Transaction.ofValid_eq_ok.mp hdata
    exact ⟨hvalid, hdistinct⟩

/-- **Transactions stay well formed.** After any history the transaction is valid: its counts can be
numbered, and each argument refers to an input that exists or to an earlier command. No two inputs are
the same value or the same object. Every argument that an edit of the history gave for an input names
a slot with that value or object, whatever happened since. -/
theorem Action.formed_performAll (hstart : tx.Starts) (history : List (Action σ))
    (hlawful : ∀ action ∈ history, action.Lawful) :
    let final := performAll tx history
    final.validate = .ok () ∧
      (final.inputs.length ≤ 65536 ∧ final.commands.length ≤ 65536 ∧
        Command.RefsWithin final.inputs.length 0 final.commands) ∧
      (Input.keys final.inputs).Nodup ∧
      ∀ front e back, history = front ++ edit e :: back → ∀ x, e.input? = some x →
        ∀ a tx', e.apply (performAll tx front) = .ok (a, tx') →
          ∃ slot y, a = some (.input slot) ∧ final.inputs[slot.toNat]? = some y ∧ y.key = x.key := by
  obtain ⟨hvalid, hdistinct⟩ := (extends_performAll hlawful hstart.formed).1
  refine ⟨hvalid, Transaction.validate_eq_ok.mp hvalid, hdistinct, ?_⟩
  rintro front e back rfl x hx a tx' happly
  exact slot_of_performAll hstart.formed hlawful hx happly

namespace Pipeline

/-- Sender and gas are set, an object is named by its id, commands that use the object too are merged
in, and all is resolved. -/
def drafted : List (Action InMemory) :=
  [.edit (.set (.sender (.ofUInt64 1))), .edit (.set (.budget 100)),
    .edit (.set (.payment [⟨.ofUInt64 9, 1, ⟨.zero⟩⟩])),
    .edit (.addUnresolved (.ofId (.ofUInt64 6))), .edit (.merge 0 ordered),
    .run (standardWith [] {} noticing) InMemory.options ⟨funded, {}, 0⟩]

theorem lawful_noticing :
    (standardWith [] {} noticing).Lawful InMemory.options funded.Asked funded where
  builtIn := by
    have hedits : noticing.Edits := IntentRegistry.forall_insert
      (IntentRegistry.forall_standard edits_coinHandler) (edits_callbackHandler _)
    simp [standardWith, Stage.BuiltIn, hedits]
  kept := by
    have hkeeps : noticing.Keeps funded.Asked := keeps_noticing
    have hkept := hkeeps.preserves
    simp [standardWith, Stage.Keeps, Stage.Preserves, hkept]
  keyed := keyed_funded
  keeps := InMemory.keeps_options funded
  peer := InMemory.Asked.refl funded

/-- The object that was named at first is still in its slot when it was looked up. -/
theorem formed_performAll_drafted :
    Transaction.empty.Starts ∧ (∀ action ∈ drafted, action.Lawful) ∧
      let final := Action.performAll .empty drafted
      final.inputs.map Input.key = [.object (.ofUInt64 6), .value [1], .object (.ofUInt64 7),
        .object (.ofUInt64 8), .value [5, 0, 0, 0, 0, 0, 0, 0]] ∧
      final.inputs[0]? = some (.object (.owned ⟨.ofUInt64 6, 1, ⟨.zero⟩⟩)) ∧
      final.validate = .ok () ∧ (Input.keys final.inputs).Nodup ∧
      ∃ slot y, some (Argument.input 0) = some (.input slot) ∧
        final.inputs[slot.toNat]? = some y ∧ y.key = .object (.ofUInt64 6) := by
  have hlawful : ∀ action ∈ drafted, action.Lawful := by
    simp only [drafted, List.forall_mem_cons, Action.Lawful, true_and]
    exact ⟨⟨_, lawful_noticing⟩, by simp⟩
  have hstart : Transaction.empty.Starts := .inl rfl
  obtain ⟨hvalid, -, hdistinct, hslots⟩ := Action.formed_performAll hstart drafted hlawful
  obtain ⟨tx', happly⟩ : ∃ tx', Edit.apply (Action.performAll .empty (drafted.take 3))
      (.addUnresolved (.ofId (.ofUInt64 6))) = .ok (some (.input 0), tx') := ⟨_, rfl⟩
  exact ⟨hstart, hlawful, by decide +kernel, by decide +kernel, hvalid, hdistinct,
    hslots (drafted.take 3) _ _ rfl _ rfl _ _ happly⟩

end Pipeline

end ObjectLedger
