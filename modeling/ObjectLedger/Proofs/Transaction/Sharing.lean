import ObjectLedger.Proofs.Transaction.Edits
import ObjectLedger.Proofs.Wire.Schema

/-!
# Values that share a slot

An input goes to the first slot that stands for the same. Edits add slots behind those that are there, so
that slot stays the first one. Two inputs that are added at any two times are therefore in one slot exactly
when they stand for the same; and for values of one schema, whose bytes can be read back, this is so
exactly when they are equal.
-/

namespace ObjectLedger

/-! ### The first slot -/

namespace Input

theorem idxOf_of_insert {inputs inputs' : List Input} {x : Input} {slot : UInt16}
    (hlen : inputs.length ≤ UInt16.size) (h : insert inputs x = .ok (slot, inputs')) :
    x.key ∈ keys inputs' ∧ (keys inputs').idxOf x.key = slot.toNat := by
  rcases insert_cases inputs x with ⟨front, e, back, rfl, hfront, hkey, hinsert⟩ | ⟨hx, hinsert⟩
  · obtain ⟨z, hz, hslot⟩ := Except.map_eq_ok.mp (hinsert ▸ h)
    cases hslot
    have hkeys : keys (front ++ z :: back) = keys front ++ x.key :: keys back := by
      simp [keys, (of_meet hkey hz).1, hkey]
    rw [List.length_append, List.length_cons] at hlen
    rw [hkeys, List.idxOf_append_of_notMem hfront, List.idxOf_cons_self,
      UInt16.toNat_ofNat_of_lt' (by omega)]
    simp [keys]
  · rw [hinsert] at h
    split_ifs at h with hroom
    cases h
    have hkeys : keys (inputs ++ [x]) = keys inputs ++ [x.key] := by simp [keys]
    rw [hkeys, List.idxOf_append_of_notMem hx, List.idxOf_cons_self,
      UInt16.toNat_ofNat_of_lt' hroom]
    simp [keys]

end Input

namespace Transaction

variable {tx tx' tx₁ tx₂ tx₃ : Transaction} {x y : Input} {a b : Argument}

/-- Slots stay below the greatest number of them, and each goes on standing for what it stands for. -/
def SlotsGrow (tx tx' : Transaction) : Prop :=
  tx.inputs.length ≤ UInt16.size →
    tx'.inputs.length ≤ UInt16.size ∧ Input.keys tx.inputs <+: Input.keys tx'.inputs

theorem slotsGrow_of_inputs (h : tx'.inputs = tx.inputs) : tx.SlotsGrow tx' := by
  intro hlen
  rw [h]
  exact ⟨hlen, List.prefix_rfl⟩

theorem slotsGrow_merge {index : Nat} {other : Transaction} (h : tx.merge index other = .ok tx') :
    tx.SlotsGrow tx' := by
  by_cases hempty : other.commands = []
  · obtain rfl := eq_of_merge_nil hempty h
    exact slotsGrow_of_inputs rfl
  · intro hlen
    obtain ⟨-, -, slots, inputs, incoming, hinputs, -, rfl, hvalid⟩ := (merge_eq_ok hempty).mp h
    exact ⟨(validate_eq_ok.mp hvalid).1, (Input.insertAll_eq_ok hlen hinputs).2.1⟩

/-- **One edit.** -/
theorem Edit.slotsGrow_apply {e : Edit} {r : Option Argument} (h : e.apply tx = .ok (r, tx')) :
    tx.SlotsGrow tx' := by
  rcases apply_eq_ok h with ⟨s, rfl⟩ | ⟨x, b, h⟩ | ⟨c, b, h⟩ | ⟨index, other, h⟩ | ⟨_, _, _, h⟩
  · cases s <;> exact slotsGrow_of_inputs rfl
  · intro hlen
    obtain ⟨⟨hlen', hprefix, -⟩, -⟩ := addInput_eq_ok hlen h
    exact ⟨hlen', hprefix⟩
  · obtain ⟨-, -, rfl⟩ := addCommand_eq_ok h
    exact slotsGrow_of_inputs rfl
  · exact slotsGrow_merge h
  · obtain ⟨-, -, tail, -, rfl, -⟩ := replaceCommand_eq_ok.mp h
    exact slotsGrow_of_inputs rfl

/-- **Any number of edits.** -/
theorem Edited.slotsGrow (h : tx.Edited tx') : tx.SlotsGrow tx' := by
  induction h with
  | refl => exact slotsGrow_of_inputs rfl
  | tail _ hstep ih =>
    obtain ⟨e, r, happly⟩ := hstep
    intro hlen
    obtain ⟨hlen₁, hprefix⟩ := ih hlen
    obtain ⟨hlen₂, hprefix'⟩ := Edit.slotsGrow_apply happly hlen₁
    exact ⟨hlen₂, hprefix.trans hprefix'⟩

/-! ### Sharing -/

theorem exists_slot_of_addInput (hlen : tx.inputs.length ≤ UInt16.size)
    (h : tx.addInput x = .ok (a, tx')) :
    ∃ slot, a = .input slot ∧ x.key ∈ Input.keys tx'.inputs ∧
      (Input.keys tx'.inputs).idxOf x.key = slot.toNat := by
  obtain ⟨⟨slot, inputs⟩, hinsert, heq⟩ := Except.map_eq_ok.mp h
  cases heq
  exact ⟨slot, rfl, Input.idxOf_of_insert hlen hinsert⟩

theorem addInput_eq_iff (hlen : tx.inputs.length ≤ UInt16.size) (h : tx.addInput x = .ok (a, tx₁))
    (hedited : tx₁.Edited tx₂) (h' : tx₂.addInput y = .ok (b, tx₃)) : a = b ↔ x.key = y.key := by
  obtain ⟨⟨hlen₁, -⟩, -⟩ := addInput_eq_ok hlen h
  obtain ⟨hlen₂, hprefix⟩ := hedited.slotsGrow hlen₁
  obtain ⟨⟨-, hprefix', -⟩, -⟩ := addInput_eq_ok hlen₂ h'
  obtain ⟨slot, rfl, hx, hslot⟩ := exists_slot_of_addInput hlen h
  obtain ⟨slot', rfl, -, hslot'⟩ := exists_slot_of_addInput hlen₂ h'
  -- The slot of the first one is still the first slot that stands for it.
  obtain ⟨more, hmore⟩ := hprefix.trans hprefix'
  rw [← hmore] at hslot'
  have hfirst : (Input.keys tx₁.inputs ++ more).idxOf x.key = (Input.keys tx₁.inputs).idxOf x.key :=
    List.idxOf_append_of_mem hx
  rw [← hfirst] at hslot
  have hxmem : x.key ∈ Input.keys tx₁.inputs ++ more := List.mem_append_left more hx
  rw [Argument.input.injEq, ← UInt16.toNat_inj, ← hslot, ← hslot']
  exact List.idxOf_inj hxmem

/-- **Pure values are passed faithfully.** Whatever follows, a value of a schema is read back from what is
written for it, when its strings and sequences are short enough for their lengths to be read. No two values
of the schema are written alike. And two values of the schema that are added to a transaction, with any
edits in between, get one slot exactly when they are equal. -/
theorem pure_values_faithful {s : Wire.Schema} (hs : s.IsPure) :
    (∀ v : s.Value, s.Fits v → ∀ (offset : Nat) (rest : List UInt8),
      s.read ⟨offset, s.write v ++ rest⟩ = (.ok v, ⟨offset + (s.write v).length, rest⟩)) ∧
    Function.Injective s.write ∧
    ∀ (tx tx₁ tx₂ tx₃ : Transaction) (v v' : s.Value) (a a' : Argument), tx.validate = .ok () →
      tx.addValue s v = .ok (a, tx₁) → tx₁.Edited tx₂ → tx₂.addValue s v' = .ok (a', tx₃) →
      (a = a' ↔ v = v') := by
  have hinjective := (Wire.Schema.selfDelimiting_write hs).injective
  refine ⟨fun v hv => Wire.Schema.reads_write hs hv, hinjective, ?_⟩
  intro tx tx₁ tx₂ tx₃ v v' a a' hvalid hadd hedited hadd'
  rw [addInput_eq_iff (validate_eq_ok.mp hvalid).1 hadd hedited hadd']
  simp [Input.key, hinjective.eq_iff]

/-- Optional strings in a sequence. They are read back with a byte behind them. With a budget set in
between, a second sequence goes to a slot of its own. -/
theorem pure_values_faithful_strings :
    Wire.Schema.IsPure (.seq (.option .string)) ∧
    Wire.Schema.read (.seq (.option .string)) ⟨0, [2, 1, 2, 0xc3, 0xa9, 0] ++ [7]⟩ =
      (.ok [some "é", none], ⟨6, [7]⟩) ∧
    ∃ tx tx' a a',
      Transaction.empty.addValue (.seq (.option .string)) [some "é", none] = .ok (a, tx) ∧
      (tx.withBudget 5).addValue (.seq (.option .string)) [none] = .ok (a', tx') ∧ a ≠ a' := by
  have hpure : Wire.Schema.IsPure (.seq (.option .string)) := trivial
  refine ⟨hpure, ?_, ?_⟩
  · have hfits : Wire.Schema.Fits (.seq (.option .string)) [some "é", none] :=
      ⟨by decide, by simpa [Wire.Schema.Fits] using (by decide : (utf8Bytes "é").length < 2 ^ 32)⟩
    exact (pure_values_faithful hpure).1 _ hfits 0 [7]
  · refine ⟨_, _, .input 0, .input 1, rfl, rfl, fun heq => ?_⟩
    have hedited (tx : Transaction) : tx.Edited (tx.withBudget 5) :=
      .single ⟨.set (.budget 5), none, rfl⟩
    have hsame := ((pure_values_faithful hpure).2.2 .empty _ _ _ [some "é", none] [none] _ _
      rfl rfl (hedited _) rfl).mp heq
    simp at hsame

end Transaction

end ObjectLedger
