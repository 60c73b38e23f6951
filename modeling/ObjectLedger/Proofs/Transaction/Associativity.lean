import ObjectLedger.Proofs.Transaction.Edits
import ObjectLedger.Proofs.Transaction.Unions

/-!
# Merges are associative

Putting a second transaction into a first one, and a third one into the second's part, is putting the
third into the second and the outcome into the first. Both ways put the inputs together to the same union,
and renumber each command to the same: a renumbering is a function on the indices of commands and a
correspondence of slots, and both compose.
-/

namespace ObjectLedger

/-! ### Renumbering -/

namespace Argument

/-- Results are renumbered by a function, and inputs take corresponding slots. -/
def Renumbers (f : Nat → Nat) (S : UInt16 → UInt16 → Prop) (a b : Argument) : Prop :=
  match a with
  | feeObject => b = feeObject
  | input j => ∃ slot, b = input slot ∧ S j slot
  | result k => ∃ k', b = result k' ∧ k'.toNat = f k.toNat
  | nestedResult k j => ∃ k', b = nestedResult k' j ∧ k'.toNat = f k.toNat

def SameKey (own merged : List Input.Key) (j slot : UInt16) : Prop :=
  ∃ key, own[j.toNat]? = some key ∧ merged[slot.toNat]? = some key

/-- Indices behind a splice of some commands at an index. -/
def moved (start amount k : Nat) : Nat := if k < start then k else k + amount

variable {f g : Nat → Nat} {S T : UInt16 → UInt16 → Prop} {a b c : Argument}

theorem renumbers_of_incoming {start : Nat} {own merged : List Input}
    (h : a.Incoming start own merged b) :
    a.Renumbers (start + ·) (SameKey (Input.keys own) (Input.keys merged)) b := by
  cases a with
  | feeObject => exact h
  | result k => exact h
  | nestedResult k j => exact h
  | input j =>
    obtain ⟨slot, old, new, rfl, hold, hnew, hkey⟩ := h
    exact ⟨slot, rfl, old.key, Input.keys_getElem?_eq_some.mpr ⟨old, hold, rfl⟩,
      Input.keys_getElem?_eq_some.mpr ⟨new, hnew, hkey⟩⟩

theorem renumbers_of_behind {start amount : Nat} (h : a.Behind start amount b) :
    a.Renumbers (moved start amount) Eq b := by
  cases a with
  | feeObject => exact h
  | result k => exact h
  | nestedResult k j => exact h
  | input j => exact ⟨j, h, rfl⟩

theorem Renumbers.comp (h : a.Renumbers f S b) (h' : b.Renumbers g T c) :
    a.Renumbers (g ∘ f) (fun j slot => ∃ i, S j i ∧ T i slot) c := by
  cases a with
  | feeObject =>
    subst h
    exact h'
  | input j =>
    obtain ⟨i, rfl, hi⟩ := h
    obtain ⟨slot, rfl, hslot⟩ := h'
    exact ⟨slot, rfl, i, hi, hslot⟩
  | result k =>
    obtain ⟨k₁, rfl, hk₁⟩ := h
    obtain ⟨k₂, rfl, hk₂⟩ := h'
    exact ⟨k₂, rfl, hk₂.trans (congrArg g hk₁)⟩
  | nestedResult k j =>
    obtain ⟨k₁, rfl, hk₁⟩ := h
    obtain ⟨k₂, rfl, hk₂⟩ := h'
    exact ⟨k₂, rfl, hk₂.trans (congrArg g hk₁)⟩

theorem Renumbers.imp (hfg : ∀ k, f k = g k) (hST : ∀ j slot, S j slot → T j slot)
    (h : a.Renumbers f S b) : a.Renumbers g T b := by
  cases a with
  | feeObject => exact h
  | input j =>
    obtain ⟨slot, rfl, hslot⟩ := h
    exact ⟨slot, rfl, hST j slot hslot⟩
  | result k =>
    obtain ⟨k', rfl, hk'⟩ := h
    exact ⟨k', rfl, hk'.trans (hfg _)⟩
  | nestedResult k j =>
    obtain ⟨k', rfl, hk'⟩ := h
    exact ⟨k', rfl, hk'.trans (hfg _)⟩

theorem Renumbers.unique (hS : ∀ j slot slot', S j slot → S j slot' → slot = slot')
    (h : a.Renumbers f S b) (h' : a.Renumbers f S c) : b = c := by
  cases a with
  | feeObject => exact Eq.trans h (Eq.symm h')
  | input j =>
    obtain ⟨slot, rfl, hslot⟩ := h
    obtain ⟨slot', rfl, hslot'⟩ := h'
    rw [hS j slot slot' hslot hslot']
  | result k =>
    obtain ⟨k₁, rfl, hk₁⟩ := h
    obtain ⟨k₂, rfl, hk₂⟩ := h'
    rw [UInt16.toNat_inj.mp (hk₁.trans hk₂.symm)]
  | nestedResult k j =>
    obtain ⟨k₁, rfl, hk₁⟩ := h
    obtain ⟨k₂, rfl, hk₂⟩ := h'
    rw [UInt16.toNat_inj.mp (hk₁.trans hk₂.symm)]

theorem SameKey.comp {own mid merged : List Input.Key} {j i slot : UInt16}
    (h : SameKey own mid j i) (h' : SameKey mid merged i slot) : SameKey own merged j slot := by
  obtain ⟨key, hown, hi⟩ := h
  obtain ⟨key', hi', hmerged⟩ := h'
  rw [hi] at hi'
  cases hi'
  exact ⟨key, hown, hmerged⟩

theorem SameKey.unique {own merged : List Input.Key} (hmerged : merged.Nodup) {j slot slot' : UInt16}
    (h : SameKey own merged j slot) (h' : SameKey own merged j slot') : slot = slot' := by
  obtain ⟨key, hown, hslot⟩ := h
  obtain ⟨key', hown', hslot'⟩ := h'
  rw [hown] at hown'
  cases hown'
  have hlt := (List.getElem?_eq_some_iff.mp hslot).1
  exact UInt16.toNat_inj.mp ((List.getElem?_inj hlt hmerged).mp (hslot.trans hslot'.symm))

theorem SameKey.mono {own own' merged merged' : List Input.Key} (hown : own <+: own')
    (hmerged : merged <+: merged') {j slot : UInt16} (h : SameKey own merged j slot) :
    SameKey own' merged' j slot := by
  obtain ⟨key, hj, hslot⟩ := h
  exact ⟨key, hown.getElem?_eq_some hj, hmerged.getElem?_eq_some hslot⟩

end Argument

namespace Command

theorem maps_unique {R : Argument → Argument → Prop} (hR : ∀ a b b', R a b → R a b' → b = b')
    {cs ds es : List Command} (h : List.Forall₂ (Maps R) cs ds) (h' : List.Forall₂ (Maps R) cs es) :
    ds = es := by
  classical
  let f : Argument → Except Unit Argument := fun a =>
    if h : ∃ b, R a b then .ok h.choose else .error ()
  have hf : ∀ a b, R a b → f a = .ok b := by
    intro a b hab
    have hex : ∃ b, R a b := ⟨b, hab⟩
    simp only [f, dif_pos hex, hR a _ b hex.choose_spec hab]
  have hmapM : ∀ {ds}, List.Forall₂ (Maps R) cs ds → cs.mapM (mapArguments f) = .ok ds := by
    intro ds h
    refine Except.mapM_eq_ok.mpr (h.imp fun c d hcd => mapArguments_eq_ok.mpr ?_)
    exact hcd.imp_of_mem fun a b _ hab => hf a b hab
  exact Except.ok.inj ((hmapM h).symm.trans (hmapM h'))

/-- Commands renumbered by a function and a correspondence of slots. -/
def Renumbered (f : Nat → Nat) (S : UInt16 → UInt16 → Prop) : List Command → List Command → Prop :=
  List.Forall₂ (Maps (Argument.Renumbers f S))

variable {f g : Nat → Nat} {S T : UInt16 → UInt16 → Prop} {cs ds es : List Command}

theorem Renumbered.comp (h : Renumbered f S cs ds) (h' : Renumbered g T ds es) :
    Renumbered (g ∘ f) (fun j slot => ∃ i, S j i ∧ T i slot) cs es :=
  h.comp_of_mem h' fun _ _ _ _ hcd hde => hcd.comp_of_mem hde fun _ _ _ _ hab hbc => hab.comp hbc

theorem Renumbered.imp (h : Renumbered f S cs ds) (hfg : ∀ k, f k = g k)
    (hST : ∀ j slot, S j slot → T j slot) : Renumbered g T cs ds :=
  List.Forall₂.imp (fun _ _ hcd => hcd.imp_of_mem fun _ _ _ hab => hab.imp hfg hST) h

theorem Renumbered.unique (hS : ∀ j slot slot', S j slot → S j slot' → slot = slot')
    (h : Renumbered f S cs ds) (h' : Renumbered f S cs es) : ds = es :=
  maps_unique (R := Argument.Renumbers f S) (fun _ _ _ hab hab' => hab.unique hS hab') h h'

variable {i k m n : Nat} {own mid merged : List Input.Key}

theorem Renumbered.incoming_incoming (h : Renumbered (k + ·) (Argument.SameKey own mid) cs ds)
    (h' : Renumbered (i + ·) (Argument.SameKey mid merged) ds es) :
    Renumbered (i + k + ·) (Argument.SameKey own merged) cs es := by
  refine (h.comp h').imp (fun r => ?_) ?_
  · simp only [Function.comp_apply]
    omega
  · rintro j slot ⟨s, hs, hslot⟩
    exact hs.comp hslot

theorem Renumbered.incoming_behind (h : Renumbered (i + ·) (Argument.SameKey own merged) cs ds)
    (h' : Renumbered (Argument.moved (i + k) n) Eq ds es) :
    Renumbered (i + Argument.moved k n ·) (Argument.SameKey own merged) cs es := by
  refine (h.comp h').imp (fun r => ?_) ?_
  · simp only [Function.comp_apply, Argument.moved]
    split_ifs <;> omega
  · rintro j slot ⟨s, hs, rfl⟩
    exact hs

theorem Renumbered.behind_incoming (h : Renumbered (Argument.moved k n) Eq cs ds)
    (h' : Renumbered (i + ·) (Argument.SameKey own merged) ds es) :
    Renumbered (i + Argument.moved k n ·) (Argument.SameKey own merged) cs es := by
  refine (h.comp h').imp (fun r => rfl) ?_
  rintro j slot ⟨s, rfl, hslot⟩
  exact hslot

theorem Renumbered.behind_behind (hk : k ≤ m) (h : Renumbered (Argument.moved i m) Eq cs ds)
    (h' : Renumbered (Argument.moved (i + k) n) Eq ds es) :
    Renumbered (Argument.moved i (m + n)) Eq cs es := by
  refine (h.comp h').imp (fun r => ?_) ?_
  · simp only [Function.comp_apply, Argument.moved]
    split_ifs <;> omega
  · rintro j slot ⟨s, rfl, rfl⟩
    rfl

end Command

namespace Transaction

variable {a b c ab bc abc abc' : Transaction} {i k : Nat}

theorem Spliced.renumbered (h : Spliced a i b ab) :
    ∃ incoming behind, ab.commands = a.commands.take i ++ incoming ++ behind ∧
      Command.Renumbered (i + ·) (Argument.SameKey (Input.keys b.inputs) (Input.keys ab.inputs))
        b.commands incoming ∧
      Command.Renumbered (Argument.moved i b.commands.length) Eq (a.commands.drop i) behind := by
  obtain ⟨incoming, behind, hcommands, hincoming, hbehind⟩ := h.commands
  refine ⟨incoming, behind, hcommands, ?_, ?_⟩
  · exact hincoming.imp fun _ _ hc => hc.imp_of_mem fun _ _ _ => Argument.renumbers_of_incoming
  · exact hbehind.imp fun _ _ hc => hc.imp_of_mem fun _ _ _ => Argument.renumbers_of_behind

theorem take_drop_splice {α : Type} {front incoming : List α} (behind : List α) (hi : front.length = i)
    (hk : k ≤ incoming.length) :
    (front ++ incoming ++ behind).take (i + k) = front ++ incoming.take k ∧
      (front ++ incoming ++ behind).drop (i + k) = incoming.drop k ++ behind := by
  subst hi
  rw [List.append_assoc, List.take_length_add_append, List.drop_length_add_append,
    List.take_append_of_le_length hk, List.drop_append_of_le_length hk]
  exact ⟨rfl, rfl⟩

/-- Both ways of splicing lead to the same commands, given that they lead to the same slots. -/
theorem commands_eq_of_spliced (hi : i ≤ a.commands.length) (hk : k ≤ b.commands.length)
    (h₁ : Spliced a i b ab) (h₂ : Spliced ab (i + k) c abc) (h₃ : Spliced b k c bc)
    (h₄ : Spliced a i bc abc') (hinputs : abc.inputs = abc'.inputs)
    (hgrows : Input.keys ab.inputs <+: Input.keys abc.inputs)
    (habc : (Input.keys abc.inputs).Nodup) : abc.commands = abc'.commands := by
  obtain ⟨bs, as, hab, hbs, has⟩ := h₁.renumbered
  obtain ⟨cs, rest, habcs, hcs, hrest⟩ := h₂.renumbered
  obtain ⟨cs', bs', hbcs, hcs', hbs'⟩ := h₃.renumbered
  obtain ⟨incoming, as', habcs', hincoming, has'⟩ := h₄.renumbered
  have hbcLength : bc.commands.length = b.commands.length + c.commands.length := by
    rw [hbcs, List.length_append, List.length_append, ← hcs'.length_eq, ← hbs'.length_eq,
      List.length_take_of_le hk, List.length_drop]
    omega
  obtain ⟨htake, hdrop⟩ := take_drop_splice as (List.length_take_of_le hi)
    (hbs.length_eq ▸ hk : k ≤ bs.length)
  rw [← hab] at htake hdrop
  -- Behind the first transaction's head come the front of the second, the third, the rest of the second,
  -- and the rest of the first; the two ways are compared part by part.
  rw [hdrop] at hrest
  obtain ⟨back, tail, rfl, hback, htail⟩ := hrest.exists_append
  rw [hbcs, ← hinputs] at hincoming
  obtain ⟨head, back', rfl, hhead, hback'⟩ := hincoming.exists_append
  obtain ⟨front, mid, rfl, hfront, hmid⟩ := hhead.exists_append
  have hgrow : Command.Renumbered (i + ·)
      (Argument.SameKey (Input.keys bc.inputs) (Input.keys abc.inputs)) b.commands bs :=
    hbs.imp (fun _ => rfl) fun _ _ h => h.mono h₃.inputs hgrows
  have hslots : ∀ {own : List Input.Key} j slot slot',
      Argument.SameKey own (Input.keys abc.inputs) j slot →
        Argument.SameKey own (Input.keys abc.inputs) j slot' → slot = slot' :=
    fun _ _ _ h h' => h.unique habc h'
  have hfronts : bs.take k = front :=
    Command.Renumbered.unique hslots (List.forall₂_take k hgrow) hfront
  have hmids : cs = mid := hcs.unique hslots (hcs'.incoming_incoming hmid)
  have hbacks : back = back' :=
    (Command.Renumbered.incoming_behind (List.forall₂_drop k hgrow) hback).unique hslots
      (hbs'.behind_incoming hback')
  have htails : tail = as' := by
    rw [hbcLength] at has'
    exact (has.behind_behind hk htail).unique (fun _ _ _ h h' => h.symm.trans h') has'
  rw [habcs, habcs', htake, hfronts, hmids, hbacks, htails]
  simp only [List.append_assoc]

/-! ### When three transactions can be merged -/

/-- What is asked of three transactions, in whatever order they are put together: the counts can be
numbered, and no two of them contradict each other. -/
structure Joinable (a b c : Transaction) : Prop where
  commands : a.commands.length + b.commands.length + c.commands.length ≤ maxEntries
  inputs : ((Input.keys a.inputs).toFinset ∪ (Input.keys b.inputs).toFinset ∪
    (Input.keys c.inputs).toFinset).card ≤ maxEntries
  first : Input.Together a.inputs b.inputs
  outer : Input.Together a.inputs c.inputs
  last : Input.Together b.inputs c.inputs

theorem exists_merge_iff (ha : a.Formed) (hb : b.Formed) (hne : b.commands ≠ [])
    (hi : i ≤ a.commands.length) :
    (∃ ab, a.merge i b = .ok ab) ↔ a.commands.length + b.commands.length ≤ maxEntries ∧
      ((Input.keys a.inputs).toFinset ∪ (Input.keys b.inputs).toFinset).card ≤ maxEntries ∧
        Input.Together a.inputs b.inputs := by
  rw [← Input.length_add_card_newKeys ha.distinct, ← Input.compatible_iff_together hb.distinct]
  constructor
  · rintro ⟨ab, h⟩
    obtain ⟨-, -, hmergeable⟩ := spliced_of_merge ha.valid hne h
    exact ⟨hmergeable.commands, hmergeable.inputs, hmergeable.compatible⟩
  · rintro ⟨hcommands, hinputs, hcompatible⟩
    exact exists_merge ha.valid hne hi
      ⟨hcommands, hinputs, hcompatible, (validate_eq_ok.mp hb.valid).2.2⟩

theorem unites_of_merge (hb : b.Formed) (hne : b.commands ≠ []) (h : a.merge i b = .ok ab) :
    Input.Unites a.inputs b.inputs ab.inputs := by
  obtain ⟨-, -, slots, inputs, incoming, hinputs, -, rfl, -⟩ := (merge_eq_ok hne).mp h
  exact Input.unites_of_insertAll hb.distinct hinputs

theorem length_of_merge (ha : a.Formed) (hne : b.commands ≠ []) (h : a.merge i b = .ok ab) :
    ab.commands.length = a.commands.length + b.commands.length := by
  obtain ⟨hspliced, hi, -⟩ := spliced_of_merge ha.valid hne h
  obtain ⟨incoming, behind, hcommands, hincoming, hbehind⟩ := hspliced.renumbered
  rw [hcommands, List.length_append, List.length_append, ← hincoming.length_eq, ← hbehind.length_eq,
    List.length_take_of_le hi, List.length_drop]
  omega

theorem commands_ne_nil_of_merge (ha : a.Formed) (hne : b.commands ≠ []) (h : a.merge i b = .ok ab) :
    ab.commands ≠ [] := by
  have hpos := List.length_pos_of_ne_nil hne
  refine List.ne_nil_of_length_pos ?_
  rw [length_of_merge ha hne h]
  omega

theorem exists_merge_left (ha : a.Formed) (hb : b.Formed) (hc : c.Formed) (hbne : b.commands ≠ [])
    (hcne : c.commands ≠ []) (hi : i ≤ a.commands.length) (hk : k ≤ b.commands.length) :
    (∃ ab abc, a.merge i b = .ok ab ∧ ab.merge (i + k) c = .ok abc) ↔ Joinable a b c := by
  constructor
  · rintro ⟨ab, abc, hab, habc⟩
    have hformed := (extends_merge hab ha).1
    have hunites := unites_of_merge hb hbne hab
    have hlength := length_of_merge ha hbne hab
    obtain ⟨-, -, hfirst⟩ := (exists_merge_iff ha hb hbne hi).mp ⟨ab, hab⟩
    obtain ⟨hcommands, hinputs, htogether⟩ :=
      (exists_merge_iff hformed hc hcne (by omega)).mp ⟨abc, habc⟩
    rw [hlength] at hcommands
    rw [hunites.toFinset] at hinputs
    obtain ⟨houter, hlast⟩ := hunites.together_iff.mp htogether
    exact ⟨hcommands, hinputs, hfirst, houter, hlast⟩
  · intro h
    have hcommands := h.commands
    have hinputs : ((Input.keys a.inputs).toFinset ∪ (Input.keys b.inputs).toFinset).card ≤
        maxEntries := (Finset.card_le_card Finset.subset_union_left).trans h.inputs
    obtain ⟨ab, hab⟩ := (exists_merge_iff ha hb hbne hi).mpr ⟨by omega, hinputs, h.first⟩
    have hformed := (extends_merge hab ha).1
    have hunites := unites_of_merge hb hbne hab
    have hlength := length_of_merge ha hbne hab
    obtain ⟨abc, habc⟩ := (exists_merge_iff (i := i + k) hformed hc hcne (by omega)).mpr
      ⟨hlength ▸ h.commands, hunites.toFinset ▸ h.inputs, hunites.together_iff.mpr ⟨h.outer, h.last⟩⟩
    exact ⟨ab, abc, hab, habc⟩

theorem exists_merge_right (ha : a.Formed) (hb : b.Formed) (hc : c.Formed)
    (hcne : c.commands ≠ []) (hi : i ≤ a.commands.length) (hk : k ≤ b.commands.length) :
    (∃ bc abc, b.merge k c = .ok bc ∧ a.merge i bc = .ok abc) ↔ Joinable a b c := by
  constructor
  · rintro ⟨bc, abc, hbc, habc⟩
    have hformed := (extends_merge hbc hb).1
    have hunites := unites_of_merge hc hcne hbc
    have hlength := length_of_merge hb hcne hbc
    obtain ⟨-, -, hlast⟩ := (exists_merge_iff hb hc hcne hk).mp ⟨bc, hbc⟩
    obtain ⟨hcommands, hinputs, htogether⟩ :=
      (exists_merge_iff ha hformed (commands_ne_nil_of_merge hb hcne hbc) hi).mp ⟨abc, habc⟩
    rw [hlength, ← Nat.add_assoc] at hcommands
    rw [hunites.toFinset, ← Finset.union_assoc] at hinputs
    obtain ⟨hfirst, houter⟩ := hunites.together_iff.mp htogether.symm
    exact ⟨hcommands, hinputs, hfirst.symm, houter.symm, hlast⟩
  · intro h
    have hcommands := h.commands
    have hinputs := h.inputs
    rw [Finset.union_assoc] at hinputs
    have hlast := (Finset.card_le_card Finset.subset_union_right).trans hinputs
    obtain ⟨bc, hbc⟩ := (exists_merge_iff hb hc hcne hk).mpr ⟨by omega, hlast, h.last⟩
    have hformed := (extends_merge hbc hb).1
    have hunites := unites_of_merge hc hcne hbc
    have hlength := length_of_merge hb hcne hbc
    obtain ⟨abc, habc⟩ := (exists_merge_iff ha hformed (commands_ne_nil_of_merge hb hcne hbc) hi).mpr
      ⟨by omega, hunites.toFinset ▸ hinputs,
        (hunites.together_iff.mpr ⟨h.first.symm, h.outer.symm⟩).symm⟩
    exact ⟨bc, abc, hbc, habc⟩

theorem eq_of_merges (ha : a.Formed) (hb : b.Formed) (hc : c.Formed) (hbne : b.commands ≠ [])
    (hcne : c.commands ≠ []) (hi : i ≤ a.commands.length) (hk : k ≤ b.commands.length)
    (hab : a.merge i b = .ok ab) (habc : ab.merge (i + k) c = .ok abc) (hbc : b.merge k c = .ok bc)
    (habc' : a.merge i bc = .ok abc') : abc = abc' := by
  have hbcne := commands_ne_nil_of_merge hb hcne hbc
  have habFormed := (extends_merge hab ha).1
  have hbcFormed := (extends_merge hbc hb).1
  obtain ⟨habcFormed, hgrows⟩ := extends_merge habc habFormed
  have hinputs : abc.inputs = abc'.inputs :=
    (unites_of_merge hb hbne hab).assoc (unites_of_merge hc hcne habc) (unites_of_merge hc hcne hbc)
      (unites_of_merge hbcFormed hbcne habc') habcFormed.distinct
  have h₁ := (spliced_of_merge ha.valid hbne hab).1
  have h₂ := (spliced_of_merge habFormed.valid hcne habc).1
  have h₃ := (spliced_of_merge hb.valid hcne hbc).1
  have h₄ := (spliced_of_merge ha.valid hbcne habc').1
  have hcommands := commands_eq_of_spliced hi hk h₁ h₂ h₃ h₄ hinputs hgrows habcFormed.distinct
  have hsender : abc.sender = abc'.sender := (h₂.sender.trans h₁.sender).trans h₄.sender.symm
  have hgas : abc.gas = abc'.gas := (h₂.gas.trans h₁.gas).trans h₄.gas.symm
  have hexpiration : abc.expiration = abc'.expiration :=
    (h₂.expiration.trans h₁.expiration).trans h₄.expiration.symm
  obtain ⟨sender, expiration, gas, inputs, commands⟩ := abc
  obtain ⟨sender', expiration', gas', inputs', commands'⟩ := abc'
  simp only at hcommands hsender hgas hexpiration hinputs
  subst hcommands hsender hgas hexpiration hinputs
  rfl

/-- **Merging is associative.** Putting a second transaction into a first one, and then a third one among
the commands of the second, has the same outcome as putting the third into the second and then both into
the first: the same transaction, or a refusal either way. -/
theorem merge_assoc (ha : a.Formed) (hb : b.Formed) (hc : c.Formed) (hbne : b.commands ≠ [])
    (hi : i ≤ a.commands.length) (hk : k ≤ b.commands.length) :
    (∃ abc, ((a.merge i b).bind fun ab => ab.merge (i + k) c) = .ok abc ∧
        ((b.merge k c).bind fun bc => a.merge i bc) = .ok abc) ∨
      (∃ fault, ((a.merge i b).bind fun ab => ab.merge (i + k) c) = .error fault) ∧
        ∃ fault, ((b.merge k c).bind fun bc => a.merge i bc) = .error fault := by
  have herror : ∀ {r : Except BuildError Transaction}, (¬∃ tx, r = .ok tx) → ∃ fault, r = .error fault := by
    rintro (fault | tx) h
    · exact ⟨fault, rfl⟩
    · exact absurd ⟨tx, rfl⟩ h
  by_cases hcne : c.commands = []
  · -- Without commands, the third one changes neither of the others.
    have hleft : ((a.merge i b).bind fun ab => ab.merge (i + k) c) = a.merge i b := by
      cases hab : a.merge i b with
      | error fault => rfl
      | ok ab =>
        have hlength := length_of_merge ha hbne hab
        exact merge_of_nil hcne (by omega)
    have hright : ((b.merge k c).bind fun bc => a.merge i bc) = a.merge i b := by
      rw [merge_of_nil hcne hk]
      rfl
    rw [hleft, hright]
    cases a.merge i b with
    | error fault => exact .inr ⟨⟨fault, rfl⟩, fault, rfl⟩
    | ok ab => exact .inl ⟨ab, rfl, rfl⟩
  · have hleft := exists_merge_left ha hb hc hbne hcne hi hk
    have hright := exists_merge_right ha hb hc hcne hi hk
    by_cases hjoin : Joinable a b c
    · obtain ⟨ab, abc, hab, habc⟩ := hleft.mpr hjoin
      obtain ⟨bc, abc', hbc, habc'⟩ := hright.mpr hjoin
      obtain rfl := eq_of_merges ha hb hc hbne hcne hi hk hab habc hbc habc'
      exact .inl ⟨abc, by rw [hab]; exact habc, by rw [hbc]; exact habc'⟩
    · refine .inr ⟨herror fun h => ?_, herror fun h => ?_⟩
      · obtain ⟨abc, h⟩ := h
        obtain ⟨ab, hab, habc⟩ := Except.bind_eq_ok.mp h
        exact hjoin (hleft.mp ⟨ab, abc, hab, habc⟩)
      · obtain ⟨abc, h⟩ := h
        obtain ⟨bc, hbc, habc⟩ := Except.bind_eq_ok.mp h
        exact hjoin (hright.mp ⟨bc, abc, hbc, habc⟩)

/-- A transaction that mentions the object of the host and the guest, and asks for it as mutable. -/
def visitor : Transaction where
  inputs := [.object (.shared (.ofUInt64 6) 1 true), .pure [3]]
  commands := [.splitCoins (.input 0) [.input 1]]

def stranger : Transaction where
  inputs := [.object (.owned ⟨.ofUInt64 6, 1, ⟨.zero⟩⟩)]
  commands := [.makeMoveVec none [.input 0]]

/-- The visitor among the commands of the guest, and these among those of the host. -/
def allInHost : Transaction where
  inputs := [.pure [1], .object (.shared (.ofUInt64 6) 1 true), .pure [2], .pure [3]]
  commands := [.splitCoins .feeObject [.input 0], .splitCoins (.input 1) [.input 2],
    .splitCoins (.input 1) [.input 3], .makeMoveVec none [.result 1],
    .mergeCoins .feeObject [.nestedResult 0 0], .transferObjects [.result 0, .result 4] (.input 0)]

theorem merge_assoc_allInHost :
    host.Formed ∧ guest.Formed ∧ visitor.Formed ∧ stranger.Formed ∧ guest.commands ≠ [] ∧
      1 ≤ host.commands.length ∧ 1 ≤ guest.commands.length ∧
      ((host.merge 1 guest).bind fun ab => ab.merge (1 + 1) visitor) = .ok allInHost ∧
      ((guest.merge 1 visitor).bind fun bc => host.merge 1 bc) = .ok allInHost ∧
      ((host.merge 1 guest).bind fun ab => ab.merge (1 + 1) stranger) =
        .error (.conflictingInput (.ofUInt64 6) "shared" "owned") ∧
      ∃ fault, ((guest.merge 1 stranger).bind fun bc => host.merge 1 bc) = .error fault := by
  have hhost : host.Formed := ⟨by decide +kernel, by decide +kernel⟩
  have hguest : guest.Formed := ⟨by decide +kernel, by decide +kernel⟩
  have hvisitor : visitor.Formed := ⟨by decide +kernel, by decide +kernel⟩
  have hstranger : stranger.Formed := ⟨by decide +kernel, by decide +kernel⟩
  have hne : guest.commands ≠ [] := by decide
  have hleft : ((host.merge 1 guest).bind fun ab => ab.merge (1 + 1) visitor) = .ok allInHost := by
    decide +kernel
  have hfault : ((host.merge 1 guest).bind fun ab => ab.merge (1 + 1) stranger) =
      .error (.conflictingInput (.ofUInt64 6) "shared" "owned") := by decide +kernel
  have hright : ((guest.merge 1 visitor).bind fun bc => host.merge 1 bc) = .ok allInHost := by
    rcases merge_assoc hhost hguest hvisitor hne (i := 1) (k := 1) (by decide) (by decide) with
      ⟨abc, hl, hr⟩ | ⟨⟨fault, hl⟩, -⟩
    · rw [hleft] at hl
      cases hl
      exact hr
    · rw [hleft] at hl
      cases hl
  have hrefused : ∃ fault, ((guest.merge 1 stranger).bind fun bc => host.merge 1 bc) = .error fault := by
    rcases merge_assoc hhost hguest hstranger hne (i := 1) (k := 1) (by decide) (by decide) with
      ⟨abc, hl, -⟩ | ⟨-, hr⟩
    · rw [hfault] at hl
      cases hl
    · exact hr
  exact ⟨hhost, hguest, hvisitor, hstranger, hne, by decide, by decide, hleft, hright, hfault, hrefused⟩

end Transaction

end ObjectLedger
