import ObjectLedger.Proofs.Transaction.Growth
import ObjectLedger.Proofs.Transaction.Merge

/-!
# What edits preserve

An edit is a step by which a caller changes a transaction. Each edit keeps the transaction valid and
its inputs without repetition, and lets every slot go on standing for what it stands for. So the
argument that an edit gives for an input names that input from then on.
-/

namespace ObjectLedger

namespace Transaction

/-! ### Edits -/

/-- What can be set about sender, gas and expiration. -/
inductive Setting where
  | sender (sender : Address)
  | defaultSender (sender : Address)
  | budget (budget : UInt64)
  | defaultBudget (budget : UInt64)
  | price (price : UInt64)
  | gasOwner (owner : Address)
  | payment (payment : List ObjectRef)
  | expiration (expiration : Expiration)

def Setting.apply (tx : Transaction) : Setting → Transaction
  | sender a => tx.withSender a
  | defaultSender a => tx.withDefaultSender a
  | budget n => tx.withBudget n
  | defaultBudget n => tx.withDefaultBudget n
  | price n => tx.withPrice n
  | gasOwner a => tx.withGasOwner a
  | payment refs => tx.withPayment refs
  | expiration e => tx.withExpiration e

/-- A step by which a caller changes a transaction. -/
inductive Edit where
  | set (s : Setting)
  | addInput (input : Input)
  | addValue (schema : Wire.Schema) (value : schema.Value)
  | addObject (arg : ObjectArg)
  | addUnresolved (object : UnresolvedObject)
  | addCommand (command : Command)
  | addMoveCall (target : String) (typeArguments : List String) (arguments : List Argument)
  | addMakeMoveVec (elementType : Option String) (elements : List Argument)
  | addIntent (name : String) (inputs : List (String × List Argument)) (data : Json)
  | addCoinWithBalance (coinType : String) (balance : UInt64)
  | merge (index : Nat) (other : Transaction)
  | replaceCommand (index : Nat) (replacement : List Command) (result : Option Argument)

namespace Edit

/-- The transaction after an edit, and the argument that the edit gives, if it gives one. -/
def apply (tx : Transaction) : Edit → Except BuildError (Option Argument × Transaction)
  | set s => .ok (none, s.apply tx)
  | addInput input => named (tx.addInput input)
  | addValue schema value => named (tx.addValue schema value)
  | addObject arg => named (tx.addObject arg)
  | addUnresolved object => named (tx.addUnresolved object)
  | addCommand command => named (tx.addCommand command)
  | addMoveCall target typeArguments arguments =>
    named (tx.addMoveCall target typeArguments arguments)
  | addMakeMoveVec elementType elements => named (tx.addMakeMoveVec elementType elements)
  | addIntent name inputs data => named (tx.addIntent name inputs data)
  | addCoinWithBalance coinType balance => named (tx.addCoinWithBalance coinType balance)
  | merge index other => (tx.merge index other).map (none, ·)
  | replaceCommand index replacement result =>
    (tx.replaceCommand index replacement result).map (none, ·)
where
  named (step : Step) : Except BuildError (Option Argument × Transaction) :=
    step.map fun r => (some r.1, r.2)

def input? : Edit → Option Input
  | addInput input => some input
  | addValue schema value => some (.pure (schema.write value))
  | addObject arg => some (.object arg)
  | addUnresolved object => some (.unresolved object)
  | _ => none

theorem apply_of_input? {e : Edit} {x : Input} (tx : Transaction) (h : e.input? = some x) :
    e.apply tx = apply.named (tx.addInput x) := by
  cases e <;> cases h <;> rfl

theorem named_eq_ok {step : Step} {a : Option Argument} {tx' : Transaction}
    (h : apply.named step = .ok (a, tx')) : ∃ b, a = some b ∧ step = .ok (b, tx') := by
  obtain ⟨⟨b, _⟩, hstep, heq⟩ := Except.map_eq_ok.mp h
  cases heq
  exact ⟨b, rfl, hstep⟩

theorem apply_eq_ok {e : Edit} {tx tx' : Transaction} {a : Option Argument}
    (h : e.apply tx = .ok (a, tx')) :
    (∃ s : Setting, tx' = s.apply tx) ∨ (∃ x b, tx.addInput x = .ok (b, tx')) ∨
      (∃ c b, tx.addCommand c = .ok (b, tx')) ∨
      (∃ index other, tx.merge index other = .ok tx') ∨
      ∃ index replacement res, tx.replaceCommand index replacement res = .ok tx' := by
  have hinput : ∀ x, e.input? = some x → ∃ x b, tx.addInput x = .ok (b, tx') := by
    intro x hx
    rw [apply_of_input? tx hx] at h
    obtain ⟨b, -, hadd⟩ := named_eq_ok h
    exact ⟨x, b, hadd⟩
  have hcommand : ∀ c, apply.named (tx.addCommand c) = .ok (a, tx') →
      ∃ c b, tx.addCommand c = .ok (b, tx') := by
    intro c h
    obtain ⟨b, -, hadd⟩ := named_eq_ok h
    exact ⟨c, b, hadd⟩
  cases e with
  | set s =>
    cases h
    exact .inl ⟨s, rfl⟩
  | addInput input => exact .inr (.inl (hinput _ rfl))
  | addValue schema value => exact .inr (.inl (hinput _ rfl))
  | addObject arg => exact .inr (.inl (hinput _ rfl))
  | addUnresolved object => exact .inr (.inl (hinput _ rfl))
  | addCommand command => exact .inr (.inr (.inl (hcommand _ h)))
  | addMoveCall target typeArguments arguments =>
    obtain ⟨b, -, hadd⟩ := named_eq_ok h
    obtain ⟨⟨package, module, function⟩, -, hadd⟩ := Except.bind_eq_ok.mp hadd
    obtain ⟨typeArguments, -, hadd⟩ := Except.bind_eq_ok.mp hadd
    exact .inr (.inr (.inl ⟨_, b, hadd⟩))
  | addMakeMoveVec elementType elements =>
    obtain ⟨b, -, hadd⟩ := named_eq_ok h
    obtain ⟨elementType, -, hadd⟩ := Except.bind_eq_ok.mp hadd
    exact .inr (.inr (.inl ⟨_, b, hadd⟩))
  | addIntent name inputs data => exact .inr (.inr (.inl (hcommand _ h)))
  | addCoinWithBalance coinType balance =>
    obtain ⟨b, -, hadd⟩ := named_eq_ok h
    obtain ⟨coinType, -, hadd⟩ := Except.bind_eq_ok.mp hadd
    exact .inr (.inr (.inl ⟨_, b, hadd⟩))
  | merge index other =>
    obtain ⟨_, hmerge, heq⟩ := Except.map_eq_ok.mp h
    cases heq
    exact .inr (.inr (.inr (.inl ⟨index, other, hmerge⟩)))
  | replaceCommand index replacement result =>
    obtain ⟨_, hreplace, heq⟩ := Except.map_eq_ok.mp h
    cases heq
    exact .inr (.inr (.inr (.inr ⟨index, replacement, result, hreplace⟩)))

end Edit

/-! ### The invariant -/

/-- Counts and references are valid, and no two inputs stand for the same value or object. -/
structure Formed (tx : Transaction) : Prop where
  valid : tx.validate = .ok ()
  distinct : (Input.keys tx.inputs).Nodup

/-- What is formed stays so, and every slot goes on standing for what it stands for. -/
def Extends (tx tx' : Transaction) : Prop :=
  tx.Formed → tx'.Formed ∧ Input.keys tx.inputs <+: Input.keys tx'.inputs

variable {tx tx' tx'' : Transaction}

theorem Extends.refl (tx : Transaction) : tx.Extends tx := fun h => ⟨h, List.prefix_rfl⟩

theorem Extends.trans (h : tx.Extends tx') (h' : tx'.Extends tx'') : tx.Extends tx'' := by
  intro hformed
  obtain ⟨hformed', hprefix⟩ := h hformed
  obtain ⟨hformed'', hprefix'⟩ := h' hformed'
  exact ⟨hformed'', hprefix.trans hprefix'⟩

theorem extends_of_keys (hkeys : Input.keys tx'.inputs = Input.keys tx.inputs)
    (hvalid : tx.validate = .ok () → tx'.validate = .ok ()) : tx.Extends tx' := by
  intro hformed
  refine ⟨⟨hvalid hformed.valid, ?_⟩, hkeys ▸ List.prefix_rfl⟩
  rw [hkeys]
  exact hformed.distinct

/-! ### Edit by edit -/

theorem extends_set (s : Setting) (tx : Transaction) : tx.Extends (s.apply tx) := by
  cases s <;> exact extends_of_keys rfl id

theorem MoreInputs.validate (h : tx.MoreInputs tx') (hvalid : tx.validate = .ok ()) :
    tx'.validate = .ok () := by
  obtain ⟨-, hcommands, hrefs⟩ := validate_eq_ok.mp hvalid
  have hle : tx.inputs.length ≤ tx'.inputs.length := by
    simpa [Input.keys] using h.2.1.length_le
  refine validate_eq_ok.mpr ⟨h.1, ?_⟩
  rw [h.commands]
  exact ⟨hcommands, hrefs.mono hle⟩

theorem extends_addInput {x : Input} {a : Argument} (h : tx.addInput x = .ok (a, tx')) :
    tx.Extends tx' := by
  intro hformed
  obtain ⟨hmore, -⟩ := addInput_eq_ok (validate_eq_ok.mp hformed.valid).1 h
  obtain ⟨⟨slot, inputs⟩, hinsert, heq⟩ := Except.map_eq_ok.mp h
  cases heq
  have hdistinct := Input.nodup_of_insert hformed.distinct hinsert
  exact ⟨⟨hmore.validate hformed.valid, hdistinct⟩, hmore.2.1⟩

theorem addCommand_eq_ok {c : Command} {a : Argument} (h : tx.addCommand c = .ok (a, tx')) :
    tx.commands.length < UInt16.size ∧
      (∀ b ∈ c.arguments, b.Within tx.commands.length tx.inputs.length) ∧
      tx' = { tx with commands := tx.commands ++ [c] } := by
  unfold addCommand at h
  simp only at h
  split_ifs at h with hroom
  obtain ⟨⟨⟩, hcheck, heq⟩ := Except.map_eq_ok.mp h
  cases heq
  exact ⟨hroom, Argument.checkAll_eq_ok.mp hcheck, rfl⟩

theorem extends_addCommand {c : Command} {a : Argument} (h : tx.addCommand c = .ok (a, tx')) :
    tx.Extends tx' := by
  obtain ⟨hroom, harguments, rfl⟩ := addCommand_eq_ok h
  refine extends_of_keys rfl fun hvalid => ?_
  obtain ⟨hinputs, -, hrefs⟩ := validate_eq_ok.mp hvalid
  refine validate_eq_ok.mpr ⟨hinputs, ?_, ?_⟩
  · rw [List.length_append]
    exact hroom
  · rw [Command.refsWithin_append, Command.refsWithin_cons, Nat.zero_add]
    exact ⟨hrefs, harguments, by simp [Command.RefsWithin]⟩

theorem extends_merge {index : Nat} {other : Transaction} (h : tx.merge index other = .ok tx') :
    tx.Extends tx' := by
  by_cases hempty : other.commands = []
  · obtain rfl := eq_of_merge_nil hempty h
    exact .refl tx'
  · intro hformed
    obtain ⟨-, -, slots, inputs, incoming, hinputs, -, rfl, hvalid⟩ := (merge_eq_ok hempty).mp h
    obtain ⟨-, hprefix, -⟩ :=
      Input.insertAll_eq_ok (validate_eq_ok.mp hformed.valid).1 hinputs
    exact ⟨⟨hvalid, Input.nodup_of_insertAll hformed.distinct hinputs⟩, hprefix⟩

theorem extends_replaceCommand {index : Nat} {replacement : List Command} {res : Option Argument}
    (h : tx.replaceCommand index replacement res = .ok tx') : tx.Extends tx' := by
  obtain ⟨-, -, tail, -, rfl, hvalid⟩ := replaceCommand_eq_ok.mp h
  exact extends_of_keys rfl fun _ => hvalid

/-- **One edit.** -/
theorem Edit.extends_apply {e : Edit} {a : Option Argument} (h : e.apply tx = .ok (a, tx')) :
    tx.Extends tx' := by
  rcases apply_eq_ok h with ⟨s, rfl⟩ | ⟨x, b, h⟩ | ⟨c, b, h⟩ | ⟨index, other, h⟩ | ⟨_, _, _, h⟩
  · exact extends_set s tx
  · exact extends_addInput h
  · exact extends_addCommand h
  · exact extends_merge h
  · exact extends_replaceCommand h

theorem Edit.slot_of_input? {e : Edit} {x : Input} {a : Option Argument} (hformed : tx.Formed)
    (hx : e.input? = some x) (h : e.apply tx = .ok (a, tx')) :
    ∃ slot, a = some (.input slot) ∧ (Input.keys tx'.inputs)[slot.toNat]? = some x.key := by
  rw [apply_of_input? tx hx] at h
  obtain ⟨b, rfl, hadd⟩ := named_eq_ok h
  obtain ⟨-, slot, rfl, hslot⟩ := addInput_eq_ok (validate_eq_ok.mp hformed.valid).1 hadd
  exact ⟨slot, rfl, hslot⟩

/-! ### Several edits -/

/-- The second transaction comes from the first by edits. -/
def Edited : Transaction → Transaction → Prop :=
  Relation.ReflTransGen fun tx tx' => ∃ (e : Edit) (a : Option Argument), e.apply tx = .ok (a, tx')

theorem Edited.extends (h : tx.Edited tx') : tx.Extends tx' := by
  induction h with
  | refl => exact .refl tx
  | tail _ hstep ih =>
    obtain ⟨e, a, happly⟩ := hstep
    exact ih.trans (Edit.extends_apply happly)

theorem edited_of_adds (h : tx.Adds tx') : tx.Edited tx' := by
  induction h with
  | refl => exact .refl
  | tail _ hstep ih =>
    obtain ⟨x, a, hadd⟩ := hstep
    exact ih.tail ⟨.addInput x, some a, Except.map_eq_ok.mpr ⟨_, hadd, rfl⟩⟩

theorem edited_of_replaceCommand {index : Nat} {replacement : List Command}
    {res : Option Argument} (h : tx.replaceCommand index replacement res = .ok tx') :
    tx.Edited tx' :=
  .single ⟨.replaceCommand index replacement res, none, Except.map_eq_ok.mpr ⟨_, h, rfl⟩⟩

end Transaction

end ObjectLedger
