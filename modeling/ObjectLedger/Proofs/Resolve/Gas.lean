import ObjectLedger.Proofs.Resolve.Build
import ObjectLedger.Proofs.Transaction.Growth
import ObjectLedger.Resolve.Gas

/-!
# Completing gas data

What is set about the gas stays as it is. Coins that are chosen to pay are not among the inputs.
-/

namespace ObjectLedger

theorem notMem_usedIds_of_mem_paymentFrom {maxCoins : Nat} {inputs : List Input}
    {coins : List CoinInfo} {ref : ObjectRef} (h : ref ∈ paymentFrom maxCoins inputs coins) :
    ref.objectId ∉ CoinRequest.usedIds inputs := by
  have hfilter := List.mem_of_mem_take h
  simpa using (List.mem_filter.mp hfilter).2

section Gas

variable {σ : Type} {o : BuildOptions σ} {maxCoins : Nat} {tx tx' : Transaction} {w w' : World σ}

/-- The price that is set, or the reference price. -/
def choosePrice (o : BuildOptions σ) (tx : Transaction) : Build σ UInt64 :=
  match tx.gas.price with
  | some price => pure price
  | none => do
    let lookup ← o.requireLookup "fetch the reference gas price"
    Build.ask lookup.gasPrice

/-- The payment that is set, or coins of the owner that are not inputs. -/
def choosePayment (maxCoins : Nat) (o : BuildOptions σ) (tx : Transaction) (owner : Address) :
    Build σ (List ObjectRef) :=
  match tx.gas.payment with
  | some payment => pure payment
  | none => do
    let lookup ← o.requireLookup "select gas payment"
    let coins ← Build.ask (lookup.coins owner TypeTag.nativeCoin)
    match paymentFrom (max 1 maxCoins) tx.inputs coins with
    | [] => throw (.noGasCoins owner)
    | payment => pure payment

theorem resolveGas_exec_eq (hkind : o.kindOnly = false) {sender : Address}
    (hsender : tx.sender = some sender) {budget : UInt64}
    (hbudget : tx.gas.budget.or o.defaultBudget = some budget) :
    (resolveGas maxCoins o tx).exec w = (do
      let price ← choosePrice o tx
      let payment ← choosePayment maxCoins o tx (tx.gas.owner.getD sender)
      return { tx with gas := ⟨some payment, some (tx.gas.owner.getD sender), some price,
        some budget⟩ } : Build σ Transaction).exec w := by
  refine congrArg (Build.exec · w) ?_
  unfold resolveGas choosePrice choosePayment
  rw [hkind, hsender, hbudget]
  -- The stage branches on price and payment inside of one block, so each of the four is matched.
  cases tx.gas.price <;> cases tx.gas.payment <;>
    simp only [pure_bind, bind_assoc, Bool.false_eq_true, if_false]
  · refine bind_congr fun _ => bind_congr fun _ => bind_congr fun _ => bind_congr fun coins => ?_
    cases paymentFrom (max 1 maxCoins) tx.inputs coins <;> rfl
  · refine bind_congr fun _ => bind_congr fun coins => ?_
    cases paymentFrom (max 1 maxCoins) tx.inputs coins <;> rfl

theorem choosePrice_eq_ok {price : UInt64} (h : (choosePrice o tx).exec w = (.ok price, w')) :
    ∀ set, tx.gas.price = some set → price = set := by
  intro set hset
  unfold choosePrice at h
  rw [hset] at h
  exact (Build.exec_pure_eq_ok.mp h).1.symm

theorem choosePayment_of_payment_none {owner : Address} {payment : List ObjectRef}
    (hpayment : tx.gas.payment = none)
    (h : (choosePayment maxCoins o tx owner).exec w = (.ok payment, w')) :
    ∃ lookup coins, o.lookup = some lookup ∧
      (lookup.coins owner TypeTag.nativeCoin w.peer).1 = .ok coins ∧
      payment = paymentFrom (max 1 maxCoins) tx.inputs coins ∧ payment ≠ [] := by
  unfold choosePayment at h
  rw [hpayment] at h
  obtain ⟨lookup, w₁, hrequire, hasked⟩ := Build.exec_bind_eq_ok.mp h
  obtain ⟨coins, w₂, hask, hchosen⟩ := Build.exec_bind_eq_ok.mp hasked
  obtain ⟨hlookup, rfl⟩ := Build.exec_requireLookup_eq_ok.mp hrequire
  obtain ⟨peer, hcoins, -⟩ := Build.exec_ask_eq_ok.mp hask
  refine ⟨lookup, coins, hlookup, by rw [hcoins], ?_⟩
  cases hfrom : paymentFrom (max 1 maxCoins) tx.inputs coins with
  | nil =>
    rw [hfrom] at hchosen
    exact absurd hchosen Build.exec_throw_ne_ok
  | cons first rest =>
    rw [hfrom] at hchosen
    obtain ⟨rfl, -⟩ := Build.exec_pure_eq_ok.mp hchosen
    exact ⟨rfl, List.cons_ne_nil first rest⟩

theorem choosePayment_eq_ok {owner : Address} {payment : List ObjectRef}
    (h : (choosePayment maxCoins o tx owner).exec w = (.ok payment, w')) :
    (∀ set, tx.gas.payment = some set → payment = set) ∧
      (tx.gas.payment = none → ∀ ref ∈ payment, ref.objectId ∉ CoinRequest.usedIds tx.inputs) := by
  constructor
  · intro set hset
    unfold choosePayment at h
    rw [hset] at h
    exact (Build.exec_pure_eq_ok.mp h).1.symm
  · intro hnone ref href
    obtain ⟨lookup, coins, -, -, rfl, -⟩ := choosePayment_of_payment_none hnone h
    exact notMem_usedIds_of_mem_paymentFrom href

theorem resolveGas_kindOnly (hkind : o.kindOnly = true) : resolveGas maxCoins o tx = pure tx := by
  unfold resolveGas
  rw [hkind]
  rfl

theorem resolveGas_of_sender_none (hkind : o.kindOnly = false) (hsender : tx.sender = none) :
    resolveGas maxCoins o tx = throw .missingSender := by
  unfold resolveGas
  rw [hkind, hsender]
  rfl

theorem resolveGas_of_budget_none (hkind : o.kindOnly = false) {sender : Address}
    (hsender : tx.sender = some sender) (hbudget : tx.gas.budget.or o.defaultBudget = none) :
    resolveGas maxCoins o tx = throw .missingGasBudget := by
  unfold resolveGas
  rw [hkind, hsender, hbudget]
  rfl

theorem resolveGas_fills (hkind : o.kindOnly = false)
    (h : (resolveGas maxCoins o tx).exec w = (.ok tx', w')) :
    ∃ sender budget price payment, tx.sender = some sender ∧
      tx.gas.budget.or o.defaultBudget = some budget ∧
      (∃ w₁ w₂, (choosePrice o tx).exec w = (.ok price, w₁) ∧
        (choosePayment maxCoins o tx (tx.gas.owner.getD sender)).exec w₁ = (.ok payment, w₂)) ∧
      tx' = { tx with gas := ⟨some payment, some (tx.gas.owner.getD sender), some price,
        some budget⟩ } := by
  cases hsender : tx.sender with
  | none =>
    rw [resolveGas_of_sender_none hkind hsender] at h
    exact absurd h Build.exec_throw_ne_ok
  | some sender =>
    cases hbudget : tx.gas.budget.or o.defaultBudget with
    | none =>
      rw [resolveGas_of_budget_none hkind hsender hbudget] at h
      exact absurd h Build.exec_throw_ne_ok
    | some budget =>
      rw [resolveGas_exec_eq hkind hsender hbudget] at h
      obtain ⟨price, w₁, hprice, h⟩ := Build.exec_bind_eq_ok.mp h
      obtain ⟨payment, w₂, hpayment, h⟩ := Build.exec_bind_eq_ok.mp h
      obtain ⟨rfl, -⟩ := Build.exec_pure_eq_ok.mp h
      refine ⟨sender, budget, price, payment, rfl, rfl, ⟨w₁, w₂, hprice, hpayment⟩, ?_⟩
      rw [hsender]

/-- **What the stage for gas does.** It leaves a transaction kind alone. Otherwise it fills in what is
open; coins that it chooses to pay are not among the inputs. -/
theorem resolveGas_eq_ok (h : (resolveGas maxCoins o tx).exec w = (.ok tx', w')) :
    (o.kindOnly = true ∧ tx' = tx) ∨
      ∃ payment gas, tx' = { tx with gas } ∧ tx.gas.Keeps gas ∧ gas.payment = some payment ∧
        (tx.gas.payment = none →
          ∀ ref ∈ payment, ref.objectId ∉ CoinRequest.usedIds tx.inputs) := by
  cases hkind : o.kindOnly with
  | true =>
    rw [resolveGas_kindOnly hkind] at h
    exact .inl ⟨rfl, (Build.exec_pure_eq_ok.mp h).1.symm⟩
  | false =>
    obtain ⟨sender, budget, price, payment, -, hbudget, ⟨_, _, hprice, hpayment⟩, rfl⟩ :=
      resolveGas_fills hkind h
    obtain ⟨hset, hfree⟩ := choosePayment_eq_ok hpayment
    refine .inr ⟨payment, _, rfl, ?_, rfl, hfree⟩
    exact {
      payment := fun set h => congrArg some (hset set h)
      owner := fun owner h => by simp [h]
      price := fun set h => congrArg some (choosePrice_eq_ok hprice set h)
      budget := fun set h => by rw [← hbudget, h, Option.some_or] }

end Gas

end ObjectLedger
