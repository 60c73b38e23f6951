import ObjectLedger.Resolve.Coins

/-!
# Gas

What the transaction leaves open about its gas: the owner is the sender, the price the reference price,
the budget the build's default, and the payment the owner's native coins that are not inputs.
-/

namespace ObjectLedger

/-- The coins that can pay: native ones that are not inputs, up to a number. -/
def paymentFrom (maxCoins : Nat) (inputs : List Input) (coins : List CoinInfo) : List ObjectRef :=
  let used := CoinRequest.usedIds inputs
  ((coins.map (·.ref)).filter fun ref => !used.contains ref.objectId).take maxCoins

/-- Completes the gas data of a transaction. -/
def resolveGas {σ : Type} (maxCoins : Nat) (o : BuildOptions σ) (tx : Transaction) :
    Build σ Transaction := do
  if o.kindOnly then return tx
  match tx.sender with
  | none => throw .missingSender
  | some sender =>
    let owner := tx.gas.owner.getD sender
    let budget ← match tx.gas.budget.or o.defaultBudget with
      | some budget => pure budget
      | none => throw .missingGasBudget
    let price ← match tx.gas.price with
      | some price => pure price
      | none => do
        let lookup ← o.requireLookup "fetch the reference gas price"
        Build.ask lookup.gasPrice
    let payment ← match tx.gas.payment with
      | some payment => pure payment
      | none => do
        let lookup ← o.requireLookup "select gas payment"
        let coins ← Build.ask (lookup.coins owner TypeTag.nativeCoin)
        match paymentFrom (max 1 maxCoins) tx.inputs coins with
        | [] => throw (.noGasCoins owner)
        | payment => pure payment
    return { tx with gas := ⟨some payment, some owner, some price, some budget⟩ }

end ObjectLedger
