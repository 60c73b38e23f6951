import ObjectLedger.Proofs.Transaction.InPlace
import ObjectLedger.Proofs.Transaction.References

/-!
# Replacing commands one after the other

Commands are gone through from the front, and some are replaced by others. What a command became is a
block: the commands in its place, and the argument that stands for its result from then on. Arguments
of commands that are still to come follow the blocks: a result is the one that its block names, or that
of a command still to come, at its present index.
-/

namespace ObjectLedger

/-! ### Blocks -/

/-- What became of a command. -/
structure Block where
  /-- The commands in its place. -/
  commands : List Command
  /-- What stands for its result; nothing can when the command is gone. -/
  result : Option Argument

namespace Block

/-- Commands became blocks that stand one behind the other, the first one at an index: each command,
with its block and the index where that starts, satisfies a predicate. -/
inductive Laid (P : Nat → Command → Block → Prop) : Nat → List Command → List Block → Prop
  | nil {place : Nat} : Laid P place [] []
  | cons {place : Nat} {c : Command} {block : Block} {cs : List Command} {blocks : List Block}
      (h : P place c block) (rest : Laid P (place + block.commands.length) cs blocks) :
      Laid P place (c :: cs) (block :: blocks)

def allCommands (blocks : List Block) : List Command := blocks.flatMap (·.commands)

variable {P Q : Nat → Command → Block → Prop} {place : Nat} {cs : List Command} {blocks : List Block}

theorem Laid.length_eq (h : Laid P place cs blocks) : cs.length = blocks.length := by
  induction h with
  | nil => rfl
  | cons _ _ ih => rw [List.length_cons, List.length_cons, ih]

theorem Laid.imp_of_mem (h : Laid P place cs blocks)
    (hPQ : ∀ place c block, c ∈ cs → block ∈ blocks → P place c block → Q place c block) :
    Laid Q place cs blocks := by
  induction h with
  | nil => exact .nil
  | cons h _ ih =>
    refine .cons (hPQ _ _ _ List.mem_cons_self List.mem_cons_self h) (ih fun _ _ _ hc hblock => ?_)
    exact hPQ _ _ _ (List.mem_cons_of_mem _ hc) (List.mem_cons_of_mem _ hblock)

theorem Laid.concat {c : Command} {block : Block} (h : Laid P place cs blocks)
    (hc : P (place + (allCommands blocks).length) c block) :
    Laid P place (cs ++ [c]) (blocks ++ [block]) := by
  induction h with
  | nil => exact .cons hc .nil
  | cons h _ ih =>
    refine .cons h (ih ?_)
    rwa [allCommands, List.flatMap_cons, List.length_append, ← Nat.add_assoc] at hc

theorem Laid.comp {R : Command → Command → Prop} {ds : List Command} (h : Laid P place ds blocks)
    (hR : List.Forall₂ R cs ds) :
    Laid (fun place c block => ∃ d, R c d ∧ P place d block) place cs blocks := by
  induction h generalizing cs with
  | nil =>
    cases hR
    exact .nil
  | cons h _ ih =>
    cases hR with
    | cons hc hR => exact .cons ⟨_, hc, h⟩ (ih hR)

end Block

/-! ### Arguments that follow their commands -/

namespace Argument

/-- What an argument may become when results of commands become arguments as a relation says. -/
def Follows (F : Nat → Argument → Prop) (a b : Argument) : Prop :=
  match a with
  | result k => F k.toNat b
  | nestedResult k j => ∃ r, F k.toNat (result r) ∧ b = nestedResult r j
  | a => b = a

/-- The result of the command at an index is what its block names. -/
def Named (targets : List (Option Argument)) (k : Nat) (t : Argument) : Prop :=
  targets[k]? = some (some t)

/-- The same while some commands are still to come, the first of them at an index now. -/
def Pending (targets : List (Option Argument)) (place : Nat) (k : Nat) (t : Argument) : Prop :=
  Named targets k t ∨
    targets.length ≤ k ∧ ∃ p, t = result p ∧ p.toNat + targets.length = place + k

/-- An argument reads from no command at an index or behind it. -/
def Below (place : Nat) (t : Argument) : Prop := ∀ k, t.command? = some k → k.toNat < place

variable {F G : Nat → Argument → Prop} {a b c t : Argument} {targets : List (Option Argument)}
  {place inserted k : Nat} {res : Option Argument}

theorem Follows.imp (h : Follows F a b)
    (hFG : ∀ k, a.command? = some k → ∀ t, F k.toNat t → G k.toNat t) : Follows G a b := by
  cases a with
  | feeObject => exact h
  | input j => exact h
  | result k => exact hFG k rfl b h
  | nestedResult k j =>
    obtain ⟨r, hr, rfl⟩ := h
    exact ⟨r, hFG k rfl _ hr, rfl⟩

theorem Within.lt_of_command {position inputCount : Nat} (h : a.Within position inputCount)
    {k : UInt16} (hk : a.command? = some k) : k.toNat < position := by
  cases a with
  | feeObject => cases hk
  | input j => cases hk
  | result k' =>
    cases hk
    exact h
  | nestedResult k' j =>
    cases hk
    exact h

theorem Below.mono {place' : Nat} (h : Below place t) (hle : place ≤ place') : Below place' t :=
  fun k hk => Nat.lt_of_lt_of_le (h k hk) hle

theorem Named.append {more : List (Option Argument)} (h : Named targets k t) :
    Named (targets ++ more) k t := by
  obtain ⟨hk, -⟩ := List.getElem?_eq_some_iff.mp h
  rw [Named, List.getElem?_append_left hk]
  exact h

theorem named_append_length {more : List (Option Argument)} :
    Named (targets ++ some t :: more) targets.length t := by
  simp [Named]

theorem Pending.named (h : Pending targets place k t) (hk : k < targets.length) :
    Named targets k t := by
  rcases h with h | ⟨hle, -⟩
  · exact h
  · exact absurd hk (Nat.not_lt.mpr hle)

theorem pending_nil {r : UInt16} : Pending [] 0 r.toNat (result r) :=
  .inr ⟨Nat.zero_le _, r, rfl, by simp⟩

theorem Pending.keep {p : UInt16} (h : Pending targets place k t) (hp : p.toNat = place) :
    Pending (targets ++ [some (result p)]) (place + 1) k t := by
  rcases h with h | ⟨hle, q, rfl, hq⟩
  · exact .inl h.append
  · by_cases hk : k = targets.length
    · subst hk
      have hqp : q = p := UInt16.toNat_inj.mp (by omega)
      exact .inl (hqp ▸ named_append_length)
    · refine .inr ⟨?_, q, rfl, ?_⟩
      · simp only [List.length_append, List.length_singleton]
        omega
      · simp only [List.length_append, List.length_singleton]
        omega

theorem redirect_of_below (h : Below place t) : t.redirect place inserted res = .ok t := by
  unfold redirect
  cases hk : t.command? with
  | none => rfl
  | some k => exact if_pos (h k hk)

theorem redirect_result_of_gt {p : UInt16} (h : place < p.toNat) :
    (Argument.result p).redirect place inserted res =
      .ok (Argument.result (UInt16.ofNat (p.toNat + inserted - 1))) := by
  simp [redirect, command?, Nat.not_lt.mpr (Nat.le_of_lt h), h]

theorem redirect_result_self {p : UInt16} (h : p.toNat = place)
    (ht : (Argument.result p).redirect place inserted res = .ok t) : res = some t := by
  subst h
  cases res with
  | none => simp [redirect, command?] at ht
  | some target => simpa [redirect, command?] using ht

theorem redirect_nestedResult {r j : UInt16}
    (h : (nestedResult r j).redirect place inserted res = .ok b) :
    ∃ r', (Argument.result r).redirect place inserted res = .ok (Argument.result r') ∧
      b = nestedResult r' j := by
  simp only [redirect, command?] at h ⊢
  split_ifs at h ⊢ with hlt hgt
  · cases h
    exact ⟨r, rfl, rfl⟩
  · cases h
    exact ⟨_, rfl, rfl⟩
  · cases res with
    | none => cases h
    | some target =>
      cases target with
      | result r' =>
        cases h
        exact ⟨r', rfl, rfl⟩
      | feeObject => cases h
      | input i => cases h
      | nestedResult r' i => cases h

/-- The next command is replaced by others: whatever its result becomes stands for it, and the commands
behind it move without wrapping. -/
theorem Pending.replace {rest : Nat} (h : Pending targets place k t)
    (ht : t.redirect place inserted res = .ok c) (hbelow : ∀ t, some t ∈ targets → Below place t)
    (hk : k ≤ targets.length + rest) (hroom : place + inserted + rest ≤ UInt16.size) :
    Pending (targets ++ [res]) (place + inserted) k c := by
  rcases h with h | ⟨hle, p, rfl, hp⟩
  · rw [redirect_of_below (hbelow t (List.mem_of_getElem? h))] at ht
    cases ht
    exact .inl h.append
  -- Still to come: the replaced command itself, or one behind it, which moves.
  · by_cases hlast : k = targets.length
    · subst hlast
      obtain rfl := redirect_result_self (by omega) ht
      exact .inl named_append_length
    · rw [redirect_result_of_gt (by omega)] at ht
      cases ht
      refine .inr ⟨?_, _, rfl, ?_⟩
      · simp only [List.length_append, List.length_singleton]
        omega
      · rw [UInt16.toNat_ofNat_of_lt' (by omega)]
        simp only [List.length_append, List.length_singleton]
        omega

theorem Follows.redirect (h : Follows F a b) (hb : b.redirect place inserted res = .ok c)
    (hFG : ∀ k, a.command? = some k → ∀ t t', F k.toNat t →
      t.redirect place inserted res = .ok t' → G k.toNat t') : Follows G a c := by
  cases a with
  | feeObject =>
    cases h
    cases hb
    rfl
  | input j =>
    cases h
    cases hb
    rfl
  | result k => exact hFG k rfl b c h hb
  | nestedResult k j =>
    obtain ⟨r, hr, rfl⟩ := h
    obtain ⟨r', hr', rfl⟩ := redirect_nestedResult hb
    exact ⟨r', hFG k rfl _ _ hr hr', rfl⟩

end Argument

/-! ### One replacement -/

namespace Transaction

variable {tx tx' : Transaction} {index : Nat} {replacement : List Command} {res : Option Argument}

theorem replaceCommand_eq (tx : Transaction) (index : Nat) (replacement : List Command)
    (res : Option Argument) :
    tx.replaceCommand index replacement res =
      if tx.commands.length ≤ index then .error (.indexOutOfRange index tx.commands.length)
      else if maxEntries < tx.commands.length - 1 + replacement.length then
        .error (.tooMany "commands")
      else (tx.commands.drop (index + 1)).mapM (fun c =>
          c.mapArguments (Argument.redirect index replacement.length res)) >>= fun tail =>
        ofValid { tx with commands := tx.commands.take index ++ replacement ++ tail } := by
  unfold replaceCommand replaceInPlace
  rw [InPlace.outcome_get_bind]
  simp only
  split_ifs
  · rfl
  · rfl
  · simp only [InPlace.outcome_onCopy, InPlace.outcome_get_bind, InPlace.outcome_ofExcept_bind,
      InPlace.outcome_modify_bind, InPlace.outcome_modify, bind_assoc]
    rfl

theorem replaceCommand_eq_ok :
    tx.replaceCommand index replacement res = .ok tx' ↔
      index < tx.commands.length ∧ tx.commands.length - 1 + replacement.length ≤ maxEntries ∧
        ∃ tail, List.Forall₂
            (Command.Maps fun a b => a.redirect index replacement.length res = .ok b)
            (tx.commands.drop (index + 1)) tail ∧
          tx' = { tx with commands := tx.commands.take index ++ replacement ++ tail } ∧
          tx'.validate = .ok () := by
  rw [replaceCommand_eq]
  split_ifs with hindex hcommands
  · simp only [false_iff, not_and]
    omega
  · simp only [false_iff, not_and]
    omega
  · have htail : ∀ {tail : List Command}, (tx.commands.drop (index + 1)).mapM (fun c =>
        c.mapArguments (Argument.redirect index replacement.length res)) = .ok tail ↔
        List.Forall₂ (Command.Maps fun a b => a.redirect index replacement.length res = .ok b)
          (tx.commands.drop (index + 1)) tail := by
      intro tail
      simp only [Except.mapM_eq_ok, Command.mapArguments_eq_ok]
    constructor
    · intro h
      obtain ⟨tail, hmaps, h⟩ := Except.bind_eq_ok.mp h
      obtain ⟨hvalid, rfl⟩ := ofValid_eq_ok.mp h
      exact ⟨by omega, by omega, tail, htail.mp hmaps, rfl, hvalid⟩
    · rintro ⟨-, -, tail, hmaps, rfl, hvalid⟩
      refine Except.bind_eq_ok.mpr ⟨tail, htail.mpr hmaps, ?_⟩
      exact ofValid_eq_ok.mpr ⟨hvalid, rfl⟩

end Transaction

end ObjectLedger
