import ObjectLedger.Proofs.Prelude
import ObjectLedger.Resolve.Basic

/-!
# Builds that succeed

A build takes the world along, also into a fault. These lemmas take one that succeeded apart: what each
of its steps gave, and the world in which the next one started.
-/

namespace ObjectLedger.Build

variable {σ α β : Type} {w w' : World σ}

theorem exec_bind (x : Build σ α) (f : α → Build σ β) (w : World σ) :
    (x >>= f).exec w = match x.exec w with
      | (.ok a, w') => (f a).exec w'
      | (.error e, w') => (.error e, w') := by
  unfold exec ExceptT.run StateT.run
  simp only [bind, ExceptT.bind, ExceptT.mk, StateT.bind]
  rcases x w with ⟨e | a, w₁⟩ <;> rfl

theorem exec_bind_eq_ok {x : Build σ α} {f : α → Build σ β} {b : β} :
    (x >>= f).exec w = (.ok b, w') ↔
      ∃ a w₁, x.exec w = (.ok a, w₁) ∧ (f a).exec w₁ = (.ok b, w') := by
  rw [exec_bind]
  rcases x.exec w with ⟨e | a, w₁⟩ <;> simp

theorem exec_pure_eq_ok {a b : α} :
    (pure a : Build σ α).exec w = (.ok b, w') ↔ a = b ∧ w = w' := by
  show ((Except.ok a : Except BuildError α), w) = _ ↔ _
  simp

theorem exec_throw_ne_ok {e : BuildError} {b : α} :
    (throw e : Build σ α).exec w ≠ (.ok b, w') := by
  intro h
  cases h

theorem exec_ofExcept_eq_ok {r : Except BuildError α} {b : α} :
    (ofExcept r).exec w = (.ok b, w') ↔ r = .ok b ∧ w = w' := by
  show (r, w) = _ ↔ _
  simp

theorem exec_ask_eq_ok {question : σ → Except ClientError α × σ} {b : α} :
    (ask question).exec w = (.ok b, w') ↔
      ∃ peer, question w.peer = (.ok b, peer) ∧ w' = { w with peer } := by
  show ((question w.peer).1.mapError BuildError.client, { w with peer := (question w.peer).2 }) = _ ↔ _
  rcases question w.peer with ⟨e | a, peer⟩
  · simp [Except.mapError]
  · simp [Except.mapError, eq_comm]

theorem exec_requireLookup_eq_ok {o : BuildOptions σ} {purpose : String} {lookup : Lookup σ} :
    (o.requireLookup purpose).exec w = (.ok lookup, w') ↔ o.lookup = some lookup ∧ w = w' := by
  rw [BuildOptions.requireLookup]
  cases o.lookup with
  | none => exact ⟨fun h => absurd h exec_throw_ne_ok, fun h => by cases h.1⟩
  | some found => simp [exec_pure_eq_ok]

end ObjectLedger.Build
