import Mathlib.Logic.Relation
import ObjectLedger.Proofs.Transaction.Inputs
import ObjectLedger.Proofs.Transaction.Replace
import ObjectLedger.Transaction.Edit

/-!
# What edits keep

While a transaction is completed, inputs are added and what is open is filled in. A slot goes on standing
for what it stood for, and what was set about sender, gas and expiration stays as it was.
-/

namespace ObjectLedger

/-! ### Slots and what is set -/

/-- What is set about the gas stays as it is. -/
structure GasData.Keeps (g g' : GasData) : Prop where
  payment : ∀ payment, g.payment = some payment → g'.payment = some payment
  owner : ∀ owner, g.owner = some owner → g'.owner = some owner
  price : ∀ price, g.price = some price → g'.price = some price
  budget : ∀ budget, g.budget = some budget → g'.budget = some budget

theorem GasData.Keeps.refl (g : GasData) : g.Keeps g :=
  ⟨fun _ h => h, fun _ h => h, fun _ h => h, fun _ h => h⟩

theorem GasData.Keeps.trans {g g' g'' : GasData} (h : g.Keeps g') (h' : g'.Keeps g'') :
    g.Keeps g'' where
  payment := fun _ hx => h'.payment _ (h.payment _ hx)
  owner := fun _ hx => h'.owner _ (h.owner _ hx)
  price := fun _ hx => h'.price _ (h.price _ hx)
  budget := fun _ hx => h'.budget _ (h.budget _ hx)

namespace Transaction

/-- Each slot goes on standing for what it stands for, and what is set stays as it is; this says
nothing about the commands. -/
structure Keeps (tx tx' : Transaction) : Prop where
  inputs : Input.keys tx.inputs <+: Input.keys tx'.inputs
  sender : tx'.sender = tx.sender
  expiration : tx'.expiration = tx.expiration
  gas : tx.gas.Keeps tx'.gas

theorem Keeps.refl (tx : Transaction) : tx.Keeps tx := ⟨List.prefix_rfl, rfl, rfl, .refl _⟩

theorem Keeps.trans {tx tx' tx'' : Transaction} (h : tx.Keeps tx') (h' : tx'.Keeps tx'') :
    tx.Keeps tx'' where
  inputs := h.inputs.trans h'.inputs
  sender := h'.sender.trans h.sender
  expiration := h'.expiration.trans h.expiration
  gas := h.gas.trans h'.gas

theorem keeps_of_replaceCommand {tx tx' : Transaction} {index : Nat} {replacement : List Command}
    {res : Option Argument} (h : tx.replaceCommand index replacement res = .ok tx') :
    tx.Keeps tx' := by
  obtain ⟨-, -, tail, -, rfl, -⟩ := replaceCommand_eq_ok.mp h
  exact ⟨List.prefix_rfl, rfl, rfl, .refl _⟩

/-! ### One more input -/

/-- A transaction with more inputs, and all else as it was. -/
def MoreInputs (tx tx' : Transaction) : Prop :=
  tx'.inputs.length ≤ UInt16.size ∧ Input.keys tx.inputs <+: Input.keys tx'.inputs ∧
    tx' = { tx with inputs := tx'.inputs }

theorem MoreInputs.refl {tx : Transaction} (h : tx.inputs.length ≤ UInt16.size) :
    tx.MoreInputs tx := ⟨h, List.prefix_rfl, rfl⟩

theorem MoreInputs.trans {tx tx' tx'' : Transaction} (h : tx.MoreInputs tx')
    (h' : tx'.MoreInputs tx'') : tx.MoreInputs tx'' := by
  refine ⟨h'.1, h.2.1.trans h'.2.1, ?_⟩
  rw [h'.2.2, h.2.2]

theorem MoreInputs.keeps {tx tx' : Transaction} (h : tx.MoreInputs tx') : tx.Keeps tx' := by
  obtain ⟨-, hinputs, heq⟩ := h
  exact ⟨hinputs, by rw [heq], by rw [heq], heq ▸ .refl _⟩

theorem MoreInputs.commands {tx tx' : Transaction} (h : tx.MoreInputs tx') :
    tx'.commands = tx.commands := by
  rw [h.2.2]

theorem addInput_eq_ok {tx tx' : Transaction} {input : Input} {a : Argument}
    (hlen : tx.inputs.length ≤ UInt16.size) (h : tx.addInput input = .ok (a, tx')) :
    tx.MoreInputs tx' ∧
      ∃ slot, a = .input slot ∧ (Input.keys tx'.inputs)[slot.toNat]? = some input.key := by
  unfold addInput at h
  obtain ⟨⟨slot, inputs⟩, hinsert, h⟩ := Except.map_eq_ok.mp h
  cases h
  obtain ⟨hlen', hprefix, hslot⟩ := Input.insert_eq_ok hlen hinsert
  exact ⟨⟨hlen', hprefix, rfl⟩, slot, rfl, hslot⟩

/-- The second transaction comes from the first by adding inputs one at a time. -/
def Adds : Transaction → Transaction → Prop :=
  Relation.ReflTransGen fun tx tx' => ∃ input a, tx.addInput input = .ok (a, tx')

theorem Adds.moreInputs {tx tx' : Transaction} (hlen : tx.inputs.length ≤ UInt16.size)
    (h : tx.Adds tx') : tx.MoreInputs tx' := by
  induction h with
  | refl => exact .refl hlen
  | tail _ hstep ih =>
    obtain ⟨input, a, hadd⟩ := hstep
    exact ih.trans (addInput_eq_ok ih.1 hadd).1

end Transaction

end ObjectLedger
