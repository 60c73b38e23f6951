import ObjectLedger.Proofs.Transaction.Merge
import ObjectLedger.Proofs.Transaction.Replace

/-!
# One command replaced by others

Replacing a command redirects its result and moves the results of later commands in one pass. The
target of the redirection is in final indices and is not moved again; later results move by the
difference in length, which may be negative, and sixteen bits suffice as long as the new commands can be
numbered.
-/

namespace ObjectLedger

/-! ### Arguments behind the replaced command -/

namespace Argument

/-- What the result of a command becomes when the one at an index is replaced by others: in front of
the index it stays, at the index it is the given argument, and behind it moves with the commands. -/
def Moved (index inserted : Nat) (res : Option Argument) (k : Nat) (t : Argument) : Prop :=
  (k < index ∧ ∃ p, t = result p ∧ p.toNat = k) ∨ (k = index ∧ res = some t) ∨
    (index < k ∧ ∃ p, t = result p ∧ p.toNat + 1 = k + inserted)

/-- Something can stand for the argument when the command at an index is replaced: any argument for its
result, and the result of a command for one of its several results. -/
def Redirectable (index : Nat) (res : Option Argument) : Argument → Prop
  | result k => k.toNat = index → ∃ t, res = some t
  | nestedResult k _ => k.toNat = index → ∃ r, res = some (result r)
  | _ => True

variable {index inserted : Nat} {res : Option Argument} {a b t : Argument}

theorem redirect_nestedResult_eq_ok {k j : UInt16} :
    (nestedResult k j).redirect index inserted res = .ok b ↔
      ∃ r, (Argument.result k).redirect index inserted res = .ok (Argument.result r) ∧
        b = nestedResult r j := by
  constructor
  · exact redirect_nestedResult
  · rintro ⟨r, hr, rfl⟩
    simp only [redirect, command?] at hr ⊢
    split_ifs at hr ⊢ with hlt hgt
    · cases hr
      rfl
    · cases hr
      rfl
    · cases res with
      | none => cases hr
      | some target =>
        cases hr
        rfl

theorem redirect_result_eq_ok {k : UInt16} (hk : k.toNat + inserted ≤ UInt16.size) :
    (Argument.result k).redirect index inserted res = .ok t ↔ Moved index inserted res k.toNat t := by
  rcases Nat.lt_trichotomy k.toNat index with hlt | rfl | hgt
  · have hbelow : Below index (Argument.result k) := by
      rintro _ ⟨⟩
      exact hlt
    rw [redirect_of_below hbelow]
    constructor
    · rintro ⟨⟩
      exact .inl ⟨hlt, k, rfl, rfl⟩
    · rintro (⟨-, p, rfl, hp⟩ | ⟨heq, -⟩ | ⟨hgt, -⟩)
      · rw [UInt16.toNat_inj.mp hp]
      · omega
      · omega
  · constructor
    · intro h
      exact .inr (.inl ⟨rfl, redirect_result_self rfl h⟩)
    · rintro (⟨hlt, -⟩ | ⟨-, rfl⟩ | ⟨hgt, -⟩)
      · omega
      · simp [redirect, command?]
      · omega
  · have hmoved : (UInt16.ofNat (k.toNat + inserted - 1)).toNat + 1 = k.toNat + inserted := by
      rw [UInt16.toNat_ofNat_of_lt' (by omega)]
      omega
    rw [redirect_result_of_gt hgt]
    constructor
    · rintro ⟨⟩
      exact .inr (.inr ⟨hgt, _, rfl, hmoved⟩)
    · rintro (⟨hlt, -⟩ | ⟨heq, -⟩ | ⟨-, p, rfl, hp⟩)
      · omega
      · omega
      · rw [UInt16.toNat_inj.mp (Nat.succ.inj (hmoved.trans hp.symm))]

theorem redirect_eq_ok (h : ∀ k, a.command? = some k → k.toNat + inserted ≤ UInt16.size) :
    a.redirect index inserted res = .ok b ↔ Follows (Moved index inserted res) a b := by
  cases a with
  | feeObject => exact ⟨fun h => (Except.ok.inj h).symm, fun h => congrArg Except.ok h.symm⟩
  | input j => exact ⟨fun h => (Except.ok.inj h).symm, fun h => congrArg Except.ok h.symm⟩
  | result k => exact redirect_result_eq_ok (h k rfl)
  | nestedResult k j =>
    rw [redirect_nestedResult_eq_ok, Follows]
    simp only [redirect_result_eq_ok (h k rfl)]

theorem exists_redirect_iff :
    (∃ b, a.redirect index inserted res = .ok b) ↔ a.Redirectable index res := by
  cases a with
  | feeObject => exact ⟨fun _ => trivial, fun _ => ⟨_, rfl⟩⟩
  | input j => exact ⟨fun _ => trivial, fun _ => ⟨_, rfl⟩⟩
  | result k =>
    rw [Redirectable]
    rcases Nat.lt_trichotomy k.toNat index with hlt | rfl | hgt
    · simp [redirect, command?, hlt, hlt.ne]
    · cases res <;> simp [redirect, command?]
    · simp [redirect, command?, hgt, hgt.ne', Nat.not_lt.mpr hgt.le]
  | nestedResult k j =>
    rw [Redirectable]
    rcases Nat.lt_trichotomy k.toNat index with hlt | rfl | hgt
    · simp [redirect, command?, hlt, hlt.ne]
    · cases res with
      | none => simp [redirect, command?]
      | some target => cases target <;> simp [redirect, command?]
    · simp [redirect, command?, hgt, hgt.ne', Nat.not_lt.mpr hgt.le]

end Argument

/-! ### The commands afterwards -/

namespace Transaction

/-- The commands after one was replaced: those in front of it, the replacement, and those behind it in
order, each argument of which became what it has to. -/
def Rewritten (tx : Transaction) (index : Nat) (replacement : List Command) (res : Option Argument)
    (commands : List Command) : Prop :=
  ∃ tail, commands = tx.commands.take index ++ replacement ++ tail ∧
    List.Forall₂ (Command.Maps (Argument.Follows (Argument.Moved index replacement.length res)))
      (tx.commands.drop (index + 1)) tail

variable {tx tx' : Transaction} {index : Nat} {replacement : List Command} {res : Option Argument}

theorem lt_length_of_command (hvalid : tx.validate = .ok ()) {c : Command} (hc : c ∈ tx.commands)
    {a : Argument} (ha : a ∈ c.arguments) {k : UInt16} (hk : a.command? = some k) :
    k.toNat + 1 < tx.commands.length := by
  obtain ⟨-, -, hrefs⟩ := validate_eq_ok.mp hvalid
  obtain ⟨position, hposition⟩ := List.getElem?_of_mem hc
  have hlt : position < tx.commands.length := (List.getElem?_eq_some_iff.mp hposition).1
  have hwithin := hrefs (c, position) (List.mem_zipIdx_iff_getElem?.mpr hposition) a ha
  have := hwithin.lt_of_command hk
  simp only at this
  omega

theorem maps_redirect_iff (hvalid : tx.validate = .ok ())
    (hcount : tx.commands.length - 1 + replacement.length ≤ maxEntries) {tail : List Command} :
    List.Forall₂ (Command.Maps fun a b => a.redirect index replacement.length res = .ok b)
        (tx.commands.drop (index + 1)) tail ↔
      List.Forall₂ (Command.Maps (Argument.Follows (Argument.Moved index replacement.length res)))
        (tx.commands.drop (index + 1)) tail := by
  have hnumbered : ∀ c ∈ tx.commands.drop (index + 1), ∀ a ∈ c.arguments, ∀ k,
      a.command? = some k → k.toNat + replacement.length ≤ UInt16.size := by
    intro c hc a ha k hk
    have := lt_length_of_command hvalid (List.mem_of_mem_drop hc) ha hk
    have hmax : maxEntries = UInt16.size := rfl
    omega
  constructor
  · intro h
    refine h.imp_of_mem fun c c' hc hmaps => hmaps.imp_of_mem fun a b ha hab => ?_
    exact (Argument.redirect_eq_ok (hnumbered c hc a ha)).mp hab
  · intro h
    refine h.imp_of_mem fun c c' hc hmaps => hmaps.imp_of_mem fun a b ha hab => ?_
    exact (Argument.redirect_eq_ok (hnumbered c hc a ha)).mpr hab

theorem replaceCommand_eq_ok_iff (hvalid : tx.validate = .ok ()) :
    tx.replaceCommand index replacement res = .ok tx' ↔
      index < tx.commands.length ∧ tx.commands.length - 1 + replacement.length ≤ maxEntries ∧
        tx.Rewritten index replacement res tx'.commands ∧
        tx' = { tx with commands := tx'.commands } ∧ tx'.validate = .ok () := by
  rw [replaceCommand_eq_ok]
  constructor
  · rintro ⟨hindex, hcount, tail, hmaps, rfl, hafter⟩
    exact ⟨hindex, hcount, ⟨tail, rfl, (maps_redirect_iff hvalid hcount).mp hmaps⟩, rfl, hafter⟩
  · rintro ⟨hindex, hcount, ⟨tail, htail, hmaps⟩, htx, hafter⟩
    refine ⟨hindex, hcount, tail, (maps_redirect_iff hvalid hcount).mpr hmaps, ?_, hafter⟩
    rw [← htail]
    exact htx

theorem exists_rewritten (hvalid : tx.validate = .ok ())
    (hcount : tx.commands.length - 1 + replacement.length ≤ maxEntries)
    (h : ∀ c ∈ tx.commands.drop (index + 1), ∀ a ∈ c.arguments, a.Redirectable index res) :
    ∃ commands, tx.Rewritten index replacement res commands := by
  have hredirect : ∀ c ∈ tx.commands.drop (index + 1), ∀ a ∈ c.arguments,
      ∃ b, a.redirect index replacement.length res = .ok b := fun c hc a ha =>
    Argument.exists_redirect_iff.mpr (h c hc a ha)
  obtain ⟨tail, htail⟩ := List.exists_forall₂ fun c hc => Command.exists_maps (hredirect c hc)
  exact ⟨_, tail, rfl, (maps_redirect_iff hvalid hcount).mp htail⟩

theorem redirectable_of_rewritten (hvalid : tx.validate = .ok ())
    (hcount : tx.commands.length - 1 + replacement.length ≤ maxEntries) {commands : List Command}
    (h : tx.Rewritten index replacement res commands) {c : Command}
    (hc : c ∈ tx.commands.drop (index + 1)) {a : Argument} (ha : a ∈ c.arguments) :
    a.Redirectable index res := by
  obtain ⟨tail, -, hmaps⟩ := h
  have hredirect := (maps_redirect_iff hvalid hcount).mpr hmaps
  obtain ⟨c', -, hcc'⟩ := hredirect.flip.exists_left hc
  obtain ⟨b, -, hab⟩ := hcc'.arguments.flip.exists_left ha
  exact Argument.exists_redirect_iff.mp ⟨b, hab⟩

theorem rewritten_unique (hvalid : tx.validate = .ok ())
    (hcount : tx.commands.length - 1 + replacement.length ≤ maxEntries)
    {commands commands' : List Command} (h : tx.Rewritten index replacement res commands)
    (h' : tx.Rewritten index replacement res commands') : commands = commands' := by
  have hmapM : ∀ {tail}, List.Forall₂
      (Command.Maps (Argument.Follows (Argument.Moved index replacement.length res)))
      (tx.commands.drop (index + 1)) tail →
      (tx.commands.drop (index + 1)).mapM (fun c =>
        c.mapArguments (Argument.redirect index replacement.length res)) = .ok tail := by
    intro tail htail
    simp only [Except.mapM_eq_ok, Command.mapArguments_eq_ok]
    exact (maps_redirect_iff hvalid hcount).mpr htail
  obtain ⟨tail, rfl, htail⟩ := h
  obtain ⟨tail', rfl, htail'⟩ := h'
  rw [Except.ok.inj ((hmapM htail).symm.trans (hmapM htail'))]

/-! ### Main statement -/

/-- **A replacement redirects, or changes nothing.** In a valid transaction it succeeds with the
commands in front, the replacement and the moved commands behind, all else as it was and valid. It fails
exactly when the index is out of range, the commands cannot be numbered, nothing can stand for a use of
the replaced result, or the new commands are not valid. A replacement in place leaves the new commands
behind, and one that fails the transaction as it was. -/
theorem replaceCommand_rewritten (hvalid : tx.validate = .ok ()) (index : Nat)
    (replacement : List Command) (res : Option Argument) :
    (∀ tx', tx.replaceCommand index replacement res = .ok tx' →
      (replaceInPlace index replacement res).leaves tx = tx' ∧
        tx.Rewritten index replacement res tx'.commands ∧
        tx' = { tx with commands := tx'.commands } ∧ tx'.validate = .ok ()) ∧
    ((∃ fault, tx.replaceCommand index replacement res = .error fault) ↔
      tx.commands.length ≤ index ∨ maxEntries < tx.commands.length - 1 + replacement.length ∨
      (∃ c ∈ tx.commands.drop (index + 1), ∃ a ∈ c.arguments, ¬a.Redirectable index res) ∨
      ∃ commands, tx.Rewritten index replacement res commands ∧
        Transaction.validate { tx with commands } ≠ .ok ()) ∧
    (∀ fault, tx.replaceCommand index replacement res = .error fault →
      (replaceInPlace index replacement res).leaves tx = tx) := by
  have hleaves : (replaceInPlace index replacement res).leaves tx =
      tx.after (tx.replaceCommand index replacement res) :=
    allOrNothing_replaceInPlace index replacement res tx
  rw [hleaves]
  refine ⟨fun tx' h => ⟨?_, ((replaceCommand_eq_ok_iff hvalid).mp h).2.2⟩, ⟨?_, ?_⟩, ?_⟩
  · rw [h]
    rfl
  · rintro ⟨fault, hfault⟩
    by_contra hnone
    simp only [not_or, Nat.not_le, Nat.not_lt, not_exists, not_and, not_not] at hnone
    obtain ⟨hindex, hcount, huses, hafter⟩ := hnone
    obtain ⟨commands, hcommands⟩ := exists_rewritten hvalid hcount huses
    have hok : tx.replaceCommand index replacement res = .ok { tx with commands } :=
      (replaceCommand_eq_ok_iff hvalid).mpr
        ⟨hindex, hcount, hcommands, rfl, hafter commands hcommands⟩
    rw [hfault] at hok
    cases hok
  · intro h
    cases hok : tx.replaceCommand index replacement res with
    | error fault => exact ⟨fault, rfl⟩
    | ok tx' =>
      obtain ⟨hindex, hcount, hrewritten, htx, hafter⟩ := (replaceCommand_eq_ok_iff hvalid).mp hok
      rcases h with h | h | ⟨c, hc, a, ha, hnot⟩ | ⟨commands, hcommands, hnot⟩
      · omega
      · omega
      · exact absurd (redirectable_of_rewritten hvalid hcount hrewritten hc ha) hnot
      · rw [rewritten_unique hvalid hcount hcommands hrewritten, ← htx] at hnot
        exact absurd hafter hnot
  · intro fault hfault
    rw [hfault]
    rfl

/-- A transaction in which the result of the second command is used, and commands behind it are. -/
def detour : Transaction where
  inputs := [.pure [1], .pure [2]]
  commands := [.splitCoins .feeObject [.input 0], .makeMoveVec none [.nestedResult 0 0],
    .splitCoins (.result 1) [.input 0], .transferObjects [.nestedResult 2 0, .result 0] (.input 1)]

def shortcut : Transaction where
  inputs := [.pure [1], .pure [2]]
  commands := [.splitCoins .feeObject [.input 0], .splitCoins (.nestedResult 0 0) [.input 0],
    .transferObjects [.nestedResult 1 0, .result 0] (.input 1)]

/-- A command goes, its result is redirected and the commands behind it move up; without a target the
same replacement fails. -/
theorem replaceCommand_rewritten_shortcut :
    detour.validate = .ok () ∧
      detour.replaceCommand 1 [] (some (.nestedResult 0 0)) = .ok shortcut ∧
      detour.Rewritten 1 [] (some (.nestedResult 0 0)) shortcut.commands ∧
      shortcut.validate = .ok () ∧
      (replaceInPlace 1 [] (some (.nestedResult 0 0))).leaves detour = shortcut ∧
      (replaceInPlace 1 [] none).leaves detour = detour := by
  have hvalid : detour.validate = .ok () := by decide +kernel
  have hok : detour.replaceCommand 1 [] (some (.nestedResult 0 0)) = .ok shortcut := by
    decide +kernel
  have hfault : detour.replaceCommand 1 [] none = .error (.danglingReference 1) := by
    decide +kernel
  obtain ⟨hleaves, hrewritten, -, hafter⟩ :=
    (replaceCommand_rewritten hvalid 1 [] (some (.nestedResult 0 0))).1 _ hok
  exact ⟨hvalid, hok, hrewritten, hafter, hleaves,
    (replaceCommand_rewritten hvalid 1 [] none).2.2 _ hfault⟩

end Transaction

end ObjectLedger
