import ObjectLedger.Resolve.Intents

/-!
# Coins of an exact balance

The handler of the intent for a coin that holds exactly a balance. Native coins are split from the coin
that pays, unless someone else pays; other coins are taken from the sender's, merged into the first one
when it takes several, and split. A balance of zero is an empty new coin.
-/

namespace ObjectLedger

/-- What the intent asks for. -/
structure CoinRequest where
  coinType : String
  balance : UInt64
  deriving DecidableEq

instance : OfJson CoinRequest where
  ofJson? := Json.record? do
    return { coinType := ← Json.required String "type"
             balance := ← Json.required UInt64 "balance" }

namespace CoinRequest

/-- Whether the coins are native ones, by the canonical text of their type. -/
def isNative (r : CoinRequest) : Bool :=
  decide ((TypeTag.normalize TypeTag.nativeCoin).toOption = some r.coinType)

/-- Takes coins in order until they hold enough: the references taken, and what they hold. -/
def pick (needed : Nat) : Nat → List CoinInfo → List ObjectRef × Nat
  | total, [] => ([], total)
  | total, coin :: coins =>
    if needed ≤ total then ([], total)
    else
      let (refs, sum) := pick needed (total + coin.balance.toNat) coins
      (coin.ref :: refs, sum)

def usedIds (inputs : List Input) : List ObjectId := inputs.filterMap Input.objectId?

/-- Adds owned objects, and gives their arguments. -/
def addOwned (tx : Transaction) : List ObjectRef → Except BuildError (List Argument × Transaction)
  | [] => .ok ([], tx)
  | ref :: refs => do
    let (a, tx) ← tx.addObject (.owned ref)
    let (rest, tx) ← addOwned tx refs
    return (a :: rest, tx)

/-- Adds coins of the sender that hold enough and that the transaction does not use yet. -/
def select {σ : Type} (r : CoinRequest) (name : String) (o : BuildOptions σ) (tx : Transaction) :
    Build σ (List Argument × Transaction) := do
  match tx.sender with
  | none => throw .missingSender
  | some owner =>
    let lookup ← o.requireLookup "select coins"
    let coins ← Build.ask (lookup.coins owner r.coinType)
    let used := usedIds tx.inputs
    let free := coins.filter fun coin => !used.contains coin.ref.objectId
    let (refs, total) := pick r.balance.toNat 0 free
    if total < r.balance.toNat then
      throw (.intent name (.insufficient owner total r.coinType r.balance))
    else Build.ofExcept (addOwned tx refs)

/-- Splits the balance from a coin in the place of the intent; commands may go in front. -/
def split (r : CoinRequest) (tx : Transaction) (index : Nat) (before : List Command)
    (coin : Argument) : Except BuildError Transaction := do
  let (amount, tx) ← tx.addValue .u64 r.balance
  let place := index + before.length
  if UInt16.size ≤ place then throw (.tooMany "commands")
  tx.replaceCommand index (before ++ [.splitCoins coin [amount]])
    (some (.nestedResult (UInt16.ofNat place) 0))

/-- A new coin without balance. -/
def zeroCall (r : CoinRequest) : Command :=
  .moveCall { package := .address (.ofUInt64 2), module := "coin", function := "zero"
              typeArguments := [r.coinType], arguments := [] }

end CoinRequest

/-- The handler of the intent for a coin of an exact balance. -/
def coinHandler {σ : Type} : IntentHandler σ := fun tx index intent o => do
  match (ofJson? intent.data : Option CoinRequest) with
  | none => throw (.intent intent.name .malformedData)
  | some r =>
    if UInt16.size ≤ index then throw (.tooMany "commands")
    else if r.balance = 0 then
      Build.ofExcept (tx.replaceCommand index [r.zeroCall] (some (.result (UInt16.ofNat index))))
    else if r.isNative ∧ !o.kindOnly then
      Build.ofExcept (r.split tx index [] .feeObject)
    else do
      let (coins, tx) ← r.select intent.name o tx
      match coins with
      | [] => throw (.internal .noCoins)
      | [coin] => Build.ofExcept (r.split tx index [] coin)
      | first :: rest => Build.ofExcept (r.split tx index [.mergeCoins first rest] first)

/-- The registry with the handler of the intent for a coin. -/
def IntentRegistry.standard {σ : Type} : IntentRegistry σ :=
  IntentRegistry.empty.insert coinWithBalance coinHandler

end ObjectLedger
