import ObjectLedger.Proofs.Resolve.Build
import ObjectLedger.Proofs.Transaction.Growth
import ObjectLedger.Resolve.Coins

/-!
# What the handler of the intent for a coin does

The intent gives way to the commands that make the coin, and its result to the argument that names the
coin among the results of these commands.
-/

namespace ObjectLedger

/-! ### What is put in the place of the intent -/

namespace CoinRequest

/-- The slot of an argument stands for an owned object, or for the coin that pays. -/
def IsCoin (keys : List Input.Key) (a : Argument) : Prop :=
  a = .feeObject ∨ ∃ slot objectId, a = .input slot ∧ keys[slot.toNat]? = some (.object objectId)

/-- The commands that make a coin in the place of an intent, and the argument that names it: a new one
without balance, or one of the balance split from a coin, into which others may be merged before. -/
inductive Made (r : CoinRequest) (keys : List Input.Key) (place : Nat) :
    List Command → Argument → Prop
  | zero {p : UInt16} (hbalance : r.balance = 0) (hp : p.toNat = place) :
      Made r keys place [r.zeroCall] (.result p)
  | split {coin : Argument} {before : List Command} {slot p : UInt16}
      (hcoin : IsCoin keys coin)
      (hbefore : before = [] ∨ ∃ sources, before = [.mergeCoins coin sources])
      (hslot : keys[slot.toNat]? = some (.value (Wire.Schema.u64.write r.balance)))
      (hp : p.toNat = place + before.length) :
      Made r keys place (before ++ [.splitCoins coin [.input slot]]) (.nestedResult p 0)

variable {r : CoinRequest} {keys keys' : List Input.Key} {place : Nat}
  {commands : List Command} {t : Argument}

theorem IsCoin.mono {a : Argument} (hkeys : keys <+: keys') (h : IsCoin keys a) :
    IsCoin keys' a := by
  rcases h with rfl | ⟨slot, objectId, rfl, h⟩
  · exact .inl rfl
  · exact .inr ⟨slot, objectId, rfl, hkeys.getElem?_eq_some h⟩

theorem Made.mono (hkeys : keys <+: keys') (h : r.Made keys place commands t) :
    r.Made keys' place commands t := by
  cases h with
  | zero hbalance hp => exact .zero hbalance hp
  | split hcoin hbefore hslot hp =>
    exact .split (hcoin.mono hkeys) hbefore (hkeys.getElem?_eq_some hslot) hp

theorem Made.below (h : r.Made keys place commands t) : t.Below (place + commands.length) := by
  intro k hk
  cases h with
  | zero _ hp =>
    cases hk
    rw [List.length_singleton]
    omega
  | split _ _ _ hp =>
    cases hk
    rw [List.length_append, List.length_singleton]
    omega

theorem Made.isIntent_eq_false (h : r.Made keys place commands t) :
    ∀ c ∈ commands, Transaction.isIntent c = false := by
  cases h with
  | zero => simp [zeroCall, Transaction.isIntent]
  | split _ hbefore =>
    rcases hbefore with rfl | ⟨sources, rfl⟩
    · simp [Transaction.isIntent]
    · simp [Transaction.isIntent]

/-! ### The steps of the handler -/

/-- All coins but the first are merged into it. -/
def mergeInto (first : Argument) (others : List Argument) : List Command :=
  if others.isEmpty then [] else [.mergeCoins first others]

theorem mergeInto_cases (first : Argument) (others : List Argument) :
    mergeInto first others = [] ∨ ∃ sources, mergeInto first others = [.mergeCoins first sources] := by
  unfold mergeInto
  split_ifs
  · exact .inl rfl
  · exact .inr ⟨_, rfl⟩

section Steps

variable {σ : Type} {o : BuildOptions σ} {tx tx' next : Transaction} {index : Nat} {w w' : World σ}

theorem split_eq_ok {before : List Command} {coin : Argument}
    (h : r.split tx index before coin = .ok next) :
    ∃ (mid : Transaction) (amount : Argument) (p : UInt16),
      tx.addInput (.pure (Wire.Schema.u64.write r.balance)) = .ok (amount, mid) ∧
      p.toNat = index + before.length ∧
      mid.replaceCommand index (before ++ [.splitCoins coin [amount]]) (some (.nestedResult p 0)) =
        .ok next := by
  unfold split at h
  obtain ⟨⟨amount, mid⟩, hadd, h⟩ := Except.bind_eq_ok.mp h
  simp only at h
  split_ifs at h with hplace
  · cases h
  · exact ⟨mid, amount, _, hadd, UInt16.toNat_ofNat_of_lt' (Nat.not_le.mp hplace), h⟩

theorem select_eq_ok {name : String} {args : List Argument}
    (h : (r.select name o tx).exec w = (.ok (args, tx'), w')) :
    ∃ owner lookup found peer' refs total, tx.sender = some owner ∧ o.lookup = some lookup ∧
      lookup.coins owner r.coinType w.peer = (.ok found, peer') ∧
      pick r.balance.toNat 0
        (found.filter fun coin => !(usedIds tx.inputs).contains coin.ref.objectId) = (refs, total) ∧
      r.balance.toNat ≤ total ∧ addOwned tx refs = .ok (args, tx') := by
  unfold select at h
  cases hsender : tx.sender with
  | none =>
    rw [hsender] at h
    exact absurd h Build.exec_throw_ne_ok
  | some owner =>
    simp only [hsender] at h
    obtain ⟨lookup, w₁, hrequire, h⟩ := Build.exec_bind_eq_ok.mp h
    obtain ⟨hlookup, rfl⟩ := Build.exec_requireLookup_eq_ok.mp hrequire
    obtain ⟨found, w₂, hask, h⟩ := Build.exec_bind_eq_ok.mp h
    obtain ⟨peer, hfound, -⟩ := Build.exec_ask_eq_ok.mp hask
    split_ifs at h with henough
    · exact absurd h Build.exec_throw_ne_ok
    · exact ⟨owner, lookup, found, peer, _, _, rfl, hlookup, hfound, rfl, Nat.not_lt.mp henough,
        (Build.exec_ofExcept_eq_ok.mp h).1⟩

/-- The ways in which the handler succeeds. -/
inductive Handled (r : CoinRequest) (name : String) (o : BuildOptions σ) (tx : Transaction) (index : Nat)
    (w : World σ) (next : Transaction) : Prop
  | zero (hbalance : r.balance = 0) (hindex : index < UInt16.size)
      (h : tx.replaceCommand index [r.zeroCall] (some (.result (UInt16.ofNat index))) = .ok next) :
      Handled r name o tx index w next
  | fee (hbalance : r.balance ≠ 0) (hfee : r.isNative = true ∧ (!o.kindOnly) = true)
      (h : r.split tx index [] .feeObject = .ok next) : Handled r name o tx index w next
  | own {first : Argument} {others : List Argument} {tx' : Transaction} {w' : World σ}
      (hbalance : r.balance ≠ 0) (hown : ¬(r.isNative = true ∧ (!o.kindOnly) = true))
      (hselect : (r.select name o tx).exec w = (.ok (first :: others, tx'), w'))
      (h : r.split tx' index (mergeInto first others) first = .ok next) :
      Handled r name o tx index w next

theorem handled_of_coinHandler {i : Intent} (h : (coinHandler tx index i o).exec w = (.ok next, w')) :
    ∃ r : CoinRequest, ofJson? i.data = some r ∧ r.Handled i.name o tx index w next := by
  unfold coinHandler at h
  cases hr : (ofJson? i.data : Option CoinRequest) with
  | none =>
    rw [hr] at h
    exact absurd h Build.exec_throw_ne_ok
  | some r =>
    simp only [hr] at h
    refine ⟨r, rfl, ?_⟩
    split_ifs at h with hindex hbalance hfee
    · exact absurd h Build.exec_throw_ne_ok
    · exact .zero hbalance (Nat.not_le.mp hindex) (Build.exec_ofExcept_eq_ok.mp h).1
    · exact .fee hbalance hfee (Build.exec_ofExcept_eq_ok.mp h).1
    · obtain ⟨⟨args, tx'⟩, w₁, hselect, h⟩ := Build.exec_bind_eq_ok.mp h
      rcases args with - | ⟨first, - | ⟨second, others⟩⟩
      · exact absurd h Build.exec_throw_ne_ok
      · exact .own hbalance hfee hselect (Build.exec_ofExcept_eq_ok.mp h).1
      · exact .own hbalance hfee hselect (Build.exec_ofExcept_eq_ok.mp h).1

/-! ### The coin that is made -/

theorem addOwned_eq_ok {refs : List ObjectRef} {args : List Argument}
    (hlen : tx.inputs.length ≤ UInt16.size) (h : addOwned tx refs = .ok (args, tx')) :
    tx.Adds tx' ∧ ∀ coin ∈ args, IsCoin (Input.keys tx'.inputs) coin := by
  induction refs generalizing tx args with
  | nil =>
    cases h
    exact ⟨.refl, by simp⟩
  | cons ref refs ih =>
    unfold addOwned at h
    obtain ⟨⟨a, mid⟩, hadd, h⟩ := Except.bind_eq_ok.mp h
    obtain ⟨⟨rest, tx''⟩, hrest, h⟩ := Except.bind_eq_ok.mp h
    cases h
    obtain ⟨hmore, slot, rfl, hslot⟩ := Transaction.addInput_eq_ok hlen hadd
    obtain ⟨hadds, hcoins⟩ := ih hmore.1 hrest
    refine ⟨.head ⟨_, _, hadd⟩ hadds, List.forall_mem_cons.mpr ⟨?_, hcoins⟩⟩
    exact .mono (hadds.moreInputs hmore.1).2.1 (.inr ⟨slot, ref.objectId, rfl, hslot⟩)

theorem made_of_split {before : List Command} {coin : Argument}
    (hlen : tx.inputs.length ≤ UInt16.size) (hcoin : IsCoin (Input.keys tx.inputs) coin)
    (hbefore : before = [] ∨ ∃ sources, before = [.mergeCoins coin sources])
    (h : r.split tx index before coin = .ok next) :
    ∃ mid commands t, tx.Adds mid ∧ r.Made (Input.keys mid.inputs) index commands t ∧
      mid.replaceCommand index commands (some t) = .ok next := by
  obtain ⟨mid, amount, p, hadd, hp, hreplace⟩ := split_eq_ok h
  obtain ⟨hmore, slot, rfl, hslot⟩ := Transaction.addInput_eq_ok hlen hadd
  exact ⟨mid, _, _, .single ⟨_, _, hadd⟩, .split (hcoin.mono hmore.2.1) hbefore hslot hp, hreplace⟩

end Steps

end CoinRequest

/-- **What the handler does.** It adds inputs, and puts the commands that make the coin in the place of
the intent. -/
theorem coinHandler_eq_ok {σ : Type} {o : BuildOptions σ} {tx next : Transaction} {index : Nat}
    {i : Intent} {w w' : World σ} (hlen : tx.inputs.length ≤ UInt16.size)
    (h : (coinHandler tx index i o).exec w = (.ok next, w')) :
    ∃ r mid commands t, ofJson? i.data = some r ∧ tx.Adds mid ∧
      CoinRequest.Made r (Input.keys mid.inputs) index commands t ∧
      mid.replaceCommand index commands (some t) = .ok next := by
  obtain ⟨r, hr, hhandled⟩ := CoinRequest.handled_of_coinHandler h
  refine ⟨r, ?_⟩
  cases hhandled with
  | zero hbalance hindex h =>
    exact ⟨tx, _, _, hr, .refl, .zero hbalance (UInt16.toNat_ofNat_of_lt' hindex), h⟩
  | fee _ _ h =>
    obtain ⟨mid, commands, t, hmade⟩ := CoinRequest.made_of_split hlen (.inl rfl) (.inl rfl) h
    exact ⟨mid, commands, t, hr, hmade⟩
  | own _ _ hselect h =>
    obtain ⟨_, _, _, _, _, _, -, -, -, -, -, hadded⟩ := CoinRequest.select_eq_ok hselect
    obtain ⟨hadds, hcoins⟩ := CoinRequest.addOwned_eq_ok hlen hadded
    obtain ⟨mid, commands, t, hadds', hmade⟩ := CoinRequest.made_of_split (hadds.moreInputs hlen).1
      (hcoins _ List.mem_cons_self) (CoinRequest.mergeInto_cases _ _) h
    exact ⟨mid, commands, t, hr, hadds.trans hadds', hmade⟩

end ObjectLedger
