import ObjectLedger.Proofs.Transaction.InPlace
import ObjectLedger.Proofs.Transaction.Inputs
import ObjectLedger.Proofs.Transaction.References

/-!
# Merging keeps every reference

Putting the commands of one transaction among those of another renumbers three kinds of references: the
incoming ones to commands, the incoming ones to inputs, and those of the host to commands behind the
splice. Each goes on naming what it named before, in sixteen bits that never wrap, and a merge fails
exactly when the outcome could not be numbered or would not be valid.
-/

namespace ObjectLedger

/-! ### What becomes of references -/

namespace Argument

/-- What an argument of an incoming command may become when its commands start at an index: a result is
that many commands further on, and an input is in a slot that stands for the same. -/
def Incoming (start : Nat) (own merged : List Input) (a b : Argument) : Prop :=
  match a with
  | feeObject => b = feeObject
  | input j => ∃ slot old new, b = input slot ∧ own[j.toNat]? = some old ∧
      merged[slot.toNat]? = some new ∧ new.key = old.key
  | result k => ∃ k', b = result k' ∧ k'.toNat = start + k.toNat
  | nestedResult k j => ∃ k', b = nestedResult k' j ∧ k'.toNat = start + k.toNat

/-- What an argument of the host may become behind a splice of some commands at an index: results from
there on are that many commands further on, and all else stays. -/
def Behind (start amount : Nat) (a b : Argument) : Prop :=
  match a with
  | result k => ∃ k', b = result k' ∧
      k'.toNat = if k.toNat < start then k.toNat else k.toNat + amount
  | nestedResult k j => ∃ k', b = nestedResult k' j ∧
      k'.toNat = if k.toNat < start then k.toNat else k.toNat + amount
  | a => b = a

theorem toNat_saturatingAdd (a b : UInt16) :
    (saturatingAdd a b).toNat = min (a.toNat + b.toNat) 65535 := by
  have hsize : UInt16.size = 65536 := rfl
  rw [saturatingAdd, UInt16.toNat_ofNat_of_lt' (by omega)]

section

variable {slots : List UInt16} {start k : UInt16} {position : Nat} {a b : Argument}

theorem toNat_saturatingAdd_of_lt (hk : k.toNat < position)
    (hposition : start.toNat + position < UInt16.size) :
    (saturatingAdd start k).toNat = start.toNat + k.toNat := by
  have hsize : UInt16.size = 65536 := rfl
  rw [toNat_saturatingAdd]
  omega

theorem toNat_saturatingAdd_lt_iff (hposition : start.toNat + position < UInt16.size) :
    (saturatingAdd start k).toNat < start.toNat + position ↔ k.toNat < position := by
  have hsize : UInt16.size = 65536 := rfl
  rw [toNat_saturatingAdd]
  omega

theorem exists_relocate (start : UInt16) (h : a.Within position slots.length) :
    ∃ b, a.relocate slots start position = .ok b := by
  cases a with
  | feeObject => exact ⟨_, rfl⟩
  | input j => exact ⟨_, by rw [relocate, List.getElem?_eq_getElem h]⟩
  | result k => exact ⟨_, rfl⟩
  | nestedResult k j => exact ⟨_, rfl⟩

theorem within_relocate {inputCount : Nat} (h : a.relocate slots start position = .ok b)
    (hslots : ∀ slot ∈ slots, slot.toNat < inputCount)
    (hposition : start.toNat + position < UInt16.size) :
    a.Within position slots.length ↔ b.Within (start.toNat + position) inputCount := by
  cases a with
  | feeObject =>
    cases h
    exact Iff.rfl
  | input j =>
    cases hj : slots[j.toNat]? with
    | none =>
      rw [relocate, hj] at h
      cases h
    | some slot =>
      rw [relocate, hj] at h
      cases h
      have hslot := hslots slot (List.mem_of_getElem? hj)
      exact ⟨fun _ => hslot, fun _ => (List.getElem?_eq_some_iff.mp hj).1⟩
  | result k =>
    cases h
    exact (toNat_saturatingAdd_lt_iff hposition).symm
  | nestedResult k j =>
    cases h
    exact (toNat_saturatingAdd_lt_iff hposition).symm

theorem incoming_of_relocate {own merged : List Input}
    (h : a.relocate slots start position = .ok b) (ha : a.Within position own.length)
    (hslots : List.Forall₂ (fun x (slot : UInt16) =>
      (Input.keys merged)[slot.toNat]? = some x.key) own slots)
    (hposition : start.toNat + position < UInt16.size) :
    a.Incoming start.toNat own merged b := by
  cases a with
  | feeObject =>
    cases h
    rfl
  | input j =>
    have hj : j.toNat < slots.length := hslots.length_eq ▸ ha
    have hkey := hslots.get ha hj
    rw [relocate, List.getElem?_eq_getElem hj] at h
    cases h
    obtain ⟨new, hnew, hnewKey⟩ := Input.keys_getElem?_eq_some.mp hkey
    exact ⟨_, _, new, rfl, List.getElem?_eq_getElem ha, hnew, hnewKey⟩
  | result k =>
    cases h
    exact ⟨_, rfl, toNat_saturatingAdd_of_lt ha hposition⟩
  | nestedResult k j =>
    cases h
    exact ⟨_, rfl, toNat_saturatingAdd_of_lt ha hposition⟩

end

theorem behind_shift {start amount : UInt16} {position inputCount : Nat} {a : Argument}
    (h : a.Within position inputCount) (hposition : position + amount.toNat ≤ UInt16.size) :
    a.Behind start.toNat amount.toNat (a.shift start amount) ∧
      (a.shift start amount).Within (position + amount.toNat) inputCount := by
  have hsum : ∀ k : UInt16, k.toNat < position → (k + amount).toNat = k.toNat + amount.toNat := by
    intro k hk
    rw [UInt16.toNat_add, Nat.mod_eq_of_lt]
    have hsize : UInt16.size = 65536 := rfl
    omega
  have hresult : ∀ k : UInt16, k.toNat < position → ∀ make : UInt16 → Argument,
      ∃ k', (if start ≤ k then make (k + amount) else make k) = make k' ∧
        (k'.toNat = if k.toNat < start.toNat then k.toNat else k.toNat + amount.toNat) ∧
        k'.toNat < position + amount.toNat := by
    intro k hk make
    by_cases hstart : start ≤ k
    · have hle := UInt16.le_iff_toNat_le.mp hstart
      rw [if_pos hstart, if_neg (Nat.not_lt.mpr hle)]
      exact ⟨_, rfl, hsum k hk, by rw [hsum k hk]; omega⟩
    · have hlt := Nat.not_le.mp fun h => hstart (UInt16.le_iff_toNat_le.mpr h)
      rw [if_neg hstart, if_pos hlt]
      exact ⟨_, rfl, rfl, by omega⟩
  cases a with
  | feeObject => exact ⟨rfl, trivial⟩
  | input j => exact ⟨rfl, h⟩
  | result k =>
    obtain ⟨k', hk', hshift, hlt⟩ := hresult k h Argument.result
    rw [shift, hk']
    exact ⟨⟨k', rfl, hshift⟩, hlt⟩
  | nestedResult k j =>
    obtain ⟨k', hk', hshift, hlt⟩ := hresult k h (Argument.nestedResult · j)
    rw [shift, hk']
    exact ⟨⟨k', rfl, hshift⟩, hlt⟩

end Argument

/-! ### Commands before, in and behind the splice -/

namespace Command

theorem RefsWithin.mono {inputCount inputCount' start : Nat} {cs : List Command}
    (h : RefsWithin inputCount start cs) (hinputs : inputCount ≤ inputCount') :
    RefsWithin inputCount' start cs :=
  fun entry hentry a ha => (h entry hentry a ha).mono (Nat.le_refl _) hinputs

theorem relocateAll_eq_ok {slots : List UInt16} {start : UInt16} {cs cs' : List Command} :
    Transaction.relocateAll slots start cs = .ok cs' ↔
      List.Forall₂ (fun entry c' =>
        Maps (fun a b => a.relocate slots start entry.2 = .ok b) entry.1 c') cs.zipIdx cs' := by
  simp only [Transaction.relocateAll, Except.mapM_eq_ok, mapArguments_eq_ok]

theorem exists_relocateAll {slots : List UInt16} {cs : List Command} (start : UInt16)
    (h : RefsWithin slots.length 0 cs) :
    ∃ cs', Transaction.relocateAll slots start cs = .ok cs' := by
  obtain ⟨cs', hcs'⟩ := List.exists_forall₂ fun entry hentry => exists_maps fun a ha =>
    Argument.exists_relocate start (h entry hentry a ha)
  exact ⟨cs', relocateAll_eq_ok.mpr hcs'⟩

theorem behind_map_shift {inputCount position : Nat} {cs : List Command} (start amount : UInt16)
    (h : RefsWithin inputCount position cs)
    (hroom : position + amount.toNat + cs.length ≤ UInt16.size) :
    List.Forall₂ (Maps (Argument.Behind start.toNat amount.toNat)) cs
        (cs.map (Command.map (.shift start amount))) ∧
      RefsWithin inputCount (position + amount.toNat)
        (cs.map (Command.map (.shift start amount))) := by
  have hmapped : List.Forall₂ (fun c c' => c' = c.map (.shift start amount)) cs
      (cs.map (Command.map (.shift start amount))) := by
    rw [List.forall₂_map_right_iff, List.forall₂_same]
    exact fun _ _ => rfl
  have hmaps : List.Forall₂ (fun entry c' => Maps (fun a b =>
      a.Within entry.2 inputCount ∧ a.Behind start.toNat amount.toNat b ∧
        b.Within (entry.2 + amount.toNat) inputCount) entry.1 c') (cs.zipIdx position)
      (cs.map (Command.map (.shift start amount))) := by
    refine (List.forall₂_zipIdx_iff.mpr hmapped).imp_of_mem fun entry c' hentry hc => ?_
    have hlt := List.snd_lt_add_of_mem_zipIdx hentry
    subst hc
    refine (maps_map _ entry.1).imp_of_mem fun a b ha hab => ?_
    have hwithin := h entry hentry a ha
    subst hab
    exact ⟨hwithin, Argument.behind_shift hwithin (by omega)⟩
  constructor
  · exact List.forall₂_zipIdx_iff.mp (hmaps.imp fun _ _ hc => hc.imp_of_mem fun _ _ _ hab => hab.2.1)
  · refine (refsWithin_iff_of_maps (R := fun k a b => a.Within k inputCount ∧
      a.Behind start.toNat amount.toNat b ∧ b.Within (k + amount.toNat) inputCount) hmaps
      fun k _ a b hab => ?_).mp h
    rw [Nat.add_right_comm]
    exact ⟨fun _ => hab.2.2, fun _ => hab.1⟩

theorem incoming_relocateAll {slots : List UInt16} {start : UInt16} {own merged : List Input}
    {cs cs' : List Command} (h : Transaction.relocateAll slots start cs = .ok cs')
    (hslots : List.Forall₂ (fun x (slot : UInt16) =>
      (Input.keys merged)[slot.toNat]? = some x.key) own slots)
    (hroom : start.toNat + cs.length ≤ UInt16.size) :
    (RefsWithin own.length 0 cs ↔ RefsWithin merged.length start.toNat cs') ∧
      (RefsWithin own.length 0 cs →
        List.Forall₂ (Maps (Argument.Incoming start.toNat own merged)) cs cs') := by
  have hmaps := relocateAll_eq_ok.mp h
  have hbound : ∀ slot ∈ slots, slot.toNat < merged.length := by
    intro slot hslot
    obtain ⟨x, -, hkey⟩ := hslots.exists_left hslot
    obtain ⟨y, hy, -⟩ := Input.keys_getElem?_eq_some.mp hkey
    exact (List.getElem?_eq_some_iff.mp hy).1
  constructor
  · refine refsWithin_iff_of_maps (R := fun k a b => a.relocate slots start k = .ok b) hmaps
      fun k hk a b hab => ?_
    rw [hslots.length_eq, Nat.zero_add]
    rw [Nat.zero_add] at hab
    exact Argument.within_relocate hab hbound (by omega)
  · intro hrefs
    refine List.forall₂_zipIdx_iff.mp (hmaps.imp_of_mem fun entry c' hentry hc => ?_)
    have hlt := List.snd_lt_of_mem_zipIdx hentry
    refine hc.imp_of_mem fun a b ha hab => ?_
    exact Argument.incoming_of_relocate hab (hrefs entry hentry a ha) hslots (by omega)

end Command

/-! ### Whole transactions -/

namespace Transaction

/-- What is asked of commands and inputs that come into a transaction: the counts can be numbered, no
two mentions of an object contradict each other, and the references are valid where they come from. -/
structure Mergeable (tx other : Transaction) : Prop where
  commands : tx.commands.length + other.commands.length ≤ maxEntries
  inputs : tx.inputs.length + (Input.newKeys tx.inputs other.inputs).card ≤ maxEntries
  compatible : Input.Compatible tx.inputs other.inputs
  references : Command.RefsWithin other.inputs.length 0 other.commands

/-- A transaction with the commands of another one in front of the command at an index. -/
structure Spliced (tx : Transaction) (index : Nat) (other merged : Transaction) : Prop where
  commands : ∃ incoming behind,
    merged.commands = tx.commands.take index ++ incoming ++ behind ∧
      List.Forall₂ (Command.Maps (Argument.Incoming index other.inputs merged.inputs))
        other.commands incoming ∧
      List.Forall₂ (Command.Maps (Argument.Behind index other.commands.length))
        (tx.commands.drop index) behind
  inputs : Input.keys tx.inputs <+: Input.keys merged.inputs
  inputs_length : merged.inputs.length =
    tx.inputs.length + (Input.newKeys tx.inputs other.inputs).card
  sender : merged.sender = tx.sender
  gas : merged.gas = tx.gas
  expiration : merged.expiration = tx.expiration
  valid : merged.validate = .ok ()

variable {tx other merged : Transaction} {index : Nat}

/-- The transaction that a merge gives, before it is checked. -/
def spliceOf (tx : Transaction) (index : Nat) (other : Transaction) (inputs : List Input)
    (incoming : List Command) : Transaction :=
  { tx with
    inputs
    commands := tx.commands.take index ++ incoming ++ (tx.commands.drop index).map
      (Command.map (.shift (UInt16.ofNat index) (UInt16.ofNat other.commands.length))) }

theorem merge_eq (tx : Transaction) (index : Nat) (other : Transaction) :
    tx.merge index other =
      if tx.commands.length < index then .error (.indexOutOfRange index tx.commands.length)
      else if other.commands.isEmpty then .ok tx
      else if maxEntries < tx.commands.length + other.commands.length then
        .error (.tooMany "commands")
      else Input.insertAll tx.inputs [] other.inputs >>= fun (slots, inputs) =>
        relocateAll slots (UInt16.ofNat index) other.commands >>= fun incoming =>
          ofValid (tx.spliceOf index other inputs incoming) := by
  unfold merge mergeInPlace
  rw [InPlace.outcome_get_bind]
  simp only
  split_ifs
  · rfl
  · rfl
  · rfl
  · simp only [InPlace.outcome_onCopy, InPlace.outcome_get_bind, InPlace.outcome_ofExcept_bind,
      InPlace.outcome_modify_bind, InPlace.outcome_modify, bind_assoc]
    rfl

theorem merge_eq_ok (hne : other.commands ≠ []) :
    tx.merge index other = .ok merged ↔
      index ≤ tx.commands.length ∧ tx.commands.length + other.commands.length ≤ maxEntries ∧
        ∃ slots inputs incoming,
          Input.insertAll tx.inputs [] other.inputs = .ok (slots, inputs) ∧
          relocateAll slots (UInt16.ofNat index) other.commands = .ok incoming ∧
          merged = tx.spliceOf index other inputs incoming ∧ merged.validate = .ok () := by
  have hempty : other.commands.isEmpty = false := List.isEmpty_eq_false_iff.mpr hne
  simp only [merge_eq, hempty, Bool.false_eq_true, if_false]
  split_ifs with hindex hcommands
  · simp only [false_iff, not_and]
    omega
  · simp only [false_iff, not_and]
    omega
  · constructor
    · intro h
      obtain ⟨⟨slots, inputs⟩, hinputs, h⟩ := Except.bind_eq_ok.mp h
      obtain ⟨incoming, hincoming, h⟩ := Except.bind_eq_ok.mp h
      obtain ⟨hvalid, rfl⟩ := ofValid_eq_ok.mp h
      exact ⟨by omega, by omega, slots, inputs, incoming, hinputs, hincoming, rfl, hvalid⟩
    · rintro ⟨-, -, slots, inputs, incoming, hinputs, hincoming, rfl, hvalid⟩
      refine Except.bind_eq_ok.mpr ⟨_, hinputs, Except.bind_eq_ok.mpr ⟨incoming, hincoming, ?_⟩⟩
      exact ofValid_eq_ok.mpr ⟨hvalid, rfl⟩

/-- The commands of the host behind the splice are renumbered without wrapping: there are none when
the number of incoming commands takes more than sixteen bits. -/
theorem behind_spliceOf (hvalid : tx.validate = .ok ()) (hindex : index ≤ tx.commands.length)
    (hcommands : tx.commands.length + other.commands.length ≤ maxEntries)
    (hstart : (UInt16.ofNat index).toNat = index) :
    let behind := (tx.commands.drop index).map
      (Command.map (.shift (UInt16.ofNat index) (UInt16.ofNat other.commands.length)))
    List.Forall₂ (Command.Maps (Argument.Behind index other.commands.length))
        (tx.commands.drop index) behind ∧
      Command.RefsWithin tx.inputs.length (index + other.commands.length) behind := by
  have hsize : maxEntries = UInt16.size := rfl
  obtain ⟨-, -, hrefs⟩ := validate_eq_ok.mp hvalid
  rw [← List.take_append_drop index tx.commands, Command.refsWithin_append,
    List.length_take_of_le hindex, Nat.zero_add] at hrefs
  have hlength : (tx.commands.drop index).length = tx.commands.length - index := List.length_drop
  by_cases hsmall : other.commands.length < UInt16.size
  · have hamount := UInt16.toNat_ofNat_of_lt' hsmall
    have hbehind := Command.behind_map_shift (UInt16.ofNat index)
      (UInt16.ofNat other.commands.length) hrefs.2 (by rw [hamount]; omega)
    rwa [hstart, hamount] at hbehind
  · have hnil : tx.commands.drop index = [] := List.drop_eq_nil_of_le (by omega)
    rw [hnil]
    exact ⟨.nil, by simp [Command.RefsWithin]⟩

/-- The candidate of a merge is valid exactly when the incoming references are, and then it is what a
merge is to give. -/
theorem validate_spliceOf {slots : List UInt16} {inputs : List Input} {incoming : List Command}
    (hvalid : tx.validate = .ok ()) (hindex : index ≤ tx.commands.length)
    (hcommands : tx.commands.length + other.commands.length ≤ maxEntries)
    (hne : other.commands ≠ [])
    (hinputs : Input.insertAll tx.inputs [] other.inputs = .ok (slots, inputs))
    (hincoming : relocateAll slots (UInt16.ofNat index) other.commands = .ok incoming) :
    ((tx.spliceOf index other inputs incoming).validate = .ok () ↔
      Command.RefsWithin other.inputs.length 0 other.commands) ∧
    (Command.RefsWithin other.inputs.length 0 other.commands →
      Spliced tx index other (tx.spliceOf index other inputs incoming)) := by
  have hsize : maxEntries = UInt16.size := rfl
  have hpos := List.length_pos_of_ne_nil hne
  obtain ⟨hinputCount, -, hrefs⟩ := validate_eq_ok.mp hvalid
  obtain ⟨hlength, hprefix, slots, rfl, hslots⟩ := Input.insertAll_eq_ok hinputCount hinputs
  have hlen := ((Input.insertAll_isOk hinputCount).mp ⟨_, hinputs⟩).2
  rw [← hlength] at hlen
  have hmore : tx.inputs.length ≤ inputs.length := by
    simpa [Input.keys] using hprefix.length_le
  have hstart : (UInt16.ofNat index).toNat = index := UInt16.toNat_ofNat_of_lt' (by omega)
  obtain ⟨hiff, hmaps⟩ := Command.incoming_relocateAll hincoming hslots (by rw [hstart]; omega)
  rw [hstart] at hiff hmaps
  obtain ⟨hbehind, hbehindRefs⟩ := behind_spliceOf hvalid hindex hcommands hstart
  have htake : Command.RefsWithin inputs.length 0 (tx.commands.take index) := by
    rw [← List.take_append_drop index tx.commands, Command.refsWithin_append] at hrefs
    exact hrefs.1.mono hmore
  have hincomingLength : incoming.length = other.commands.length := by
    have h := (Command.relocateAll_eq_ok.mp hincoming).length_eq
    rw [List.length_zipIdx] at h
    exact h.symm
  have hvalidate : (tx.spliceOf index other inputs incoming).validate = .ok () ↔
      Command.RefsWithin other.inputs.length 0 other.commands := by
    rw [validate_eq_ok, hiff]
    simp only [spliceOf, Command.refsWithin_append, List.length_append, List.length_map,
      List.length_take_of_le hindex, List.length_drop, hincomingLength, Nat.zero_add]
    constructor
    · rintro ⟨-, -, ⟨-, h⟩, -⟩
      exact h
    · intro h
      exact ⟨hlen, by omega, ⟨htake, h⟩, hbehindRefs.mono hmore⟩
  refine ⟨hvalidate, fun hown => ?_⟩
  exact {
    commands := ⟨incoming, _, rfl, hmaps hown, hbehind⟩
    inputs := hprefix
    inputs_length := hlength
    sender := rfl
    gas := rfl
    expiration := rfl
    valid := hvalidate.mpr hown }

theorem merge_of_nil (hempty : other.commands = []) (hindex : index ≤ tx.commands.length) :
    tx.merge index other = .ok tx := by
  simp [merge_eq, hempty, Nat.not_lt.mpr hindex]

theorem merge_of_gt (hindex : tx.commands.length < index) :
    tx.merge index other = .error (.indexOutOfRange index tx.commands.length) := by
  simp [merge_eq, hindex]

theorem eq_of_merge_nil (hempty : other.commands = []) (h : tx.merge index other = .ok merged) :
    merged = tx := by
  rcases Nat.lt_or_ge tx.commands.length index with hindex | hindex
  · rw [merge_of_gt hindex] at h
    cases h
  · rw [merge_of_nil hempty hindex] at h
    exact (Except.ok.inj h).symm

theorem spliced_of_merge (hvalid : tx.validate = .ok ()) (hne : other.commands ≠ [])
    (h : tx.merge index other = .ok merged) :
    Spliced tx index other merged ∧ index ≤ tx.commands.length ∧ Mergeable tx other := by
  obtain ⟨hindex, hcommands, slots, inputs, incoming, hinputs, hincoming, rfl, hmerged⟩ :=
    (merge_eq_ok hne).mp h
  obtain ⟨hvalidate, hsplice⟩ := validate_spliceOf hvalid hindex hcommands hne hinputs hincoming
  obtain ⟨hcompatible, hcount⟩ :=
    (Input.insertAll_isOk (validate_eq_ok.mp hvalid).1).mp ⟨_, hinputs⟩
  have hrefs := hvalidate.mp hmerged
  exact ⟨hsplice hrefs, hindex, hcommands, hcount, hcompatible, hrefs⟩

theorem exists_merge (hvalid : tx.validate = .ok ()) (hne : other.commands ≠ [])
    (hindex : index ≤ tx.commands.length) (h : Mergeable tx other) :
    ∃ merged, tx.merge index other = .ok merged := by
  have hinputCount := (validate_eq_ok.mp hvalid).1
  obtain ⟨⟨slots, inputs⟩, hinputs⟩ : ∃ r, Input.insertAll tx.inputs [] other.inputs = .ok r :=
    (Input.insertAll_isOk hinputCount).mpr ⟨h.compatible, h.inputs⟩
  have hslots : slots.length = other.inputs.length := by
    obtain ⟨-, -, slots, rfl, hslots⟩ := Input.insertAll_eq_ok hinputCount hinputs
    exact hslots.length_eq.symm
  obtain ⟨incoming, hincoming⟩ := Command.exists_relocateAll (UInt16.ofNat index)
    (hslots ▸ h.references)
  obtain ⟨hvalidate, -⟩ := validate_spliceOf hvalid hindex h.commands hne hinputs hincoming
  exact ⟨_, (merge_eq_ok hne).mpr ⟨hindex, h.commands, slots, inputs, incoming, hinputs, hincoming,
    rfl, hvalidate.mpr h.references⟩⟩

/-- **A merge renumbers, or changes nothing.** Putting commands into a valid transaction succeeds
exactly when the index is in range and there are no commands, or counts and references allow it; then
the host and the incoming commands are spliced with every reference naming what it named before, and
the result is valid. That is what a merge in place leaves behind; one that fails or has no commands to put
in leaves the transaction as it was. -/
theorem merge_spliced (hvalid : tx.validate = .ok ()) (index : Nat) (other : Transaction) :
    ((∃ merged, tx.merge index other = .ok merged) ↔
      index ≤ tx.commands.length ∧ (other.commands = [] ∨ Mergeable tx other)) ∧
    (∀ merged, tx.merge index other = .ok merged →
      (mergeInPlace index other).leaves tx = merged ∧
        (other.commands ≠ [] → Spliced tx index other merged)) ∧
    ((∃ fault, tx.merge index other = .error fault) ∨ other.commands = [] →
      (mergeInPlace index other).leaves tx = tx) := by
  have hleaves : (mergeInPlace index other).leaves tx = tx.after (tx.merge index other) :=
    allOrNothing_mergeInPlace index other tx
  rw [hleaves]
  refine ⟨⟨?_, ?_⟩, fun merged h => ⟨?_, fun hne => (spliced_of_merge hvalid hne h).1⟩, ?_⟩
  · rintro ⟨merged, h⟩
    have hindex : index ≤ tx.commands.length := by
      by_contra hgt
      rw [merge_of_gt (Nat.not_le.mp hgt)] at h
      cases h
    by_cases hempty : other.commands = []
    · exact ⟨hindex, .inl hempty⟩
    · exact ⟨hindex, .inr (spliced_of_merge hvalid hempty h).2.2⟩
  · rintro ⟨hindex, h⟩
    by_cases hempty : other.commands = []
    · exact ⟨tx, merge_of_nil hempty hindex⟩
    · exact exists_merge hvalid hempty hindex (h.resolve_left hempty)
  · rw [h]
    rfl
  · rintro (⟨fault, h⟩ | hempty)
    · rw [h]
      rfl
    · rcases Nat.lt_or_ge tx.commands.length index with hindex | hindex
      · rw [merge_of_gt hindex]
        rfl
      · rw [merge_of_nil hempty hindex]
        rfl

/-- A transaction with references on both sides of its second command. -/
def host : Transaction where
  inputs := [.pure [1], .object (.shared (.ofUInt64 6) 1 false)]
  commands := [.splitCoins .feeObject [.input 0], .mergeCoins .feeObject [.nestedResult 0 0],
    .transferObjects [.result 0, .result 1] (.input 0)]

def guest : Transaction where
  inputs := [.pure [2], .unresolved (.ofId (.ofUInt64 6))]
  commands := [.splitCoins (.input 1) [.input 0], .makeMoveVec none [.result 0]]

def guestInHost : Transaction where
  inputs := host.inputs ++ [.pure [2]]
  commands := [.splitCoins .feeObject [.input 0], .splitCoins (.input 1) [.input 2],
    .makeMoveVec none [.result 1], .mergeCoins .feeObject [.nestedResult 0 0],
    .transferObjects [.result 0, .result 3] (.input 0)]

theorem merge_spliced_guestInHost :
    host.validate = .ok () ∧ host.merge 1 guest = .ok guestInHost ∧ Mergeable host guest ∧
      (mergeInPlace 1 guest).leaves host = guestInHost ∧ Spliced host 1 guest guestInHost ∧
      (mergeInPlace 4 guest).leaves host = host := by
  have hvalid : host.validate = .ok () := by decide +kernel
  have hmerge : host.merge 1 guest = .ok guestInHost := by decide +kernel
  have hfault : host.merge 4 guest = .error (.indexOutOfRange 4 3) := by decide +kernel
  have hne : guest.commands ≠ [] := by decide
  obtain ⟨hiff, hspliced, -⟩ := merge_spliced hvalid 1 guest
  have hmergeable := (hiff.mp ⟨_, hmerge⟩).2.resolve_left hne
  obtain ⟨hleaves, hsplice⟩ := hspliced _ hmerge
  exact ⟨hvalid, hmerge, hmergeable, hleaves, hsplice hne,
    (merge_spliced hvalid 4 guest).2.2 (.inl ⟨_, hfault⟩)⟩

end Transaction

end ObjectLedger
