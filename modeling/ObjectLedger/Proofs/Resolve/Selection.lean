import ObjectLedger.Proofs.Resolve.Coins
import ObjectLedger.Proofs.Resolve.Peers

/-!
# Which coins an intent takes

The handler of the intent for a coin takes coins of the sender, in the order in which the lookup lists
them, that no input stands for, until they hold enough. Where the coins that are listed are distinct, each
of them gets a new slot, so that the inputs so far stay in front as they are.
-/

namespace ObjectLedger

/-! ### New slots -/

namespace Input

variable {inputs inputs' : List Input} {slot : UInt16}

theorem mem_usedIds_iff {objectId : ObjectId} :
    objectId ∈ CoinRequest.usedIds inputs ↔ Key.object objectId ∈ keys inputs := by
  unfold CoinRequest.usedIds keys
  rw [List.mem_filterMap, List.mem_map]
  refine exists_congr fun x => and_congr_right fun _ => ?_
  cases x <;> simp [objectId?, key]

theorem insert_pure_eq_ok {bytes : List UInt8} (hlen : inputs.length ≤ UInt16.size)
    (h : insert inputs (pure bytes) = .ok (slot, inputs')) :
    inputs <+: inputs' ∧ CoinRequest.usedIds inputs' = CoinRequest.usedIds inputs ∧
      inputs'[slot.toNat]? = some (pure bytes) := by
  rcases insert_cases inputs (pure bytes) with ⟨front, e, back, rfl, -, hkey, hinsert⟩ | ⟨-, hinsert⟩
  · obtain ⟨z, hz, hslot⟩ := Except.map_eq_ok.mp (hinsert ▸ h)
    cases hslot
    cases hz
    rw [List.length_append, List.length_cons] at hlen
    refine ⟨List.prefix_rfl, rfl, ?_⟩
    rw [UInt16.toNat_ofNat_of_lt' (by omega)]
    cases e <;> cases hkey
    simp
  · rw [hinsert] at h
    split_ifs at h with hroom
    cases h
    refine ⟨List.prefix_append _ _, by simp [CoinRequest.usedIds, objectId?], ?_⟩
    rw [UInt16.toNat_ofNat_of_lt' hroom]
    simp

theorem insert_new_eq_ok {x : Input} (hx : x.key ∉ keys inputs)
    (h : insert inputs x = .ok (slot, inputs')) :
    inputs' = inputs ++ [x] ∧ inputs'[slot.toNat]? = some x := by
  rcases insert_cases inputs x with ⟨front, e, back, rfl, -, hkey, -⟩ | ⟨-, hinsert⟩
  · exact absurd (by simp [keys, hkey]) hx
  · rw [hinsert] at h
    split_ifs at h with hroom
    cases h
    rw [UInt16.toNat_ofNat_of_lt' hroom]
    simp

end Input

/-! ### Coins -/

def coinIds (coins : List CoinInfo) : List ObjectId := coins.map (·.ref.objectId)

/-- What coins hold together. -/
def worth : List CoinInfo → Nat
  | [] => 0
  | coin :: coins => coin.balance.toNat + worth coins

/-- A slot holds a coin, as an owned object. -/
def OwnedAt (inputs : List Input) (slot : UInt16) (coin : CoinInfo) : Prop :=
  inputs[slot.toNat]? = some (.object (.owned coin.ref))

/-- While a condition on its state holds, the coins of an owner that a lookup lists are distinct. -/
def Lookup.DistinctCoins {σ : Type} (lookup : Lookup σ) (holds : σ → Prop) : Prop :=
  ∀ owner coinType peer found peer', holds peer →
    lookup.coins owner coinType peer = (.ok found, peer') → (coinIds found).Nodup

theorem Lookup.AnswersFrom.distinctCoins {σ : Type} {lookup : Lookup σ} {holds : σ → Prop}
    {data : FixedData} (h : lookup.AnswersFrom holds data)
    (hdata : ∀ owner coinType coins, data.coins owner coinType = .ok coins → (coinIds coins).Nodup) :
    lookup.DistinctCoins holds := by
  intro owner coinType peer found peer' hpeer hfound
  obtain ⟨_, heq, -⟩ := h.coins owner coinType peer hpeer
  rw [hfound] at heq
  exact hdata owner coinType found (Prod.mk.inj heq).1.symm

/-- Coins are among those of a type that the lookup lists for the sender, in order, when it is asked while a
condition on its state holds. -/
def BuildOptions.Lists {σ : Type} (o : BuildOptions σ) (holds : σ → Prop) (sender : Option Address)
    (coinType : String) (coins : List CoinInfo) : Prop :=
  ∃ owner lookup peer found peer', sender = some owner ∧ o.lookup = some lookup ∧ holds peer ∧
    lookup.coins owner coinType peer = (.ok found, peer') ∧ coins.Sublist found

/-- Inputs stay in front of new slots for coins and for values. The objects that they stand for are those
from before and, behind them, the coins; these are distinct, and none of them was there before. -/
structure Input.Takes (inputs inputs' : List Input) (coins : List CoinInfo) : Prop where
  front : inputs <+: inputs'
  used : CoinRequest.usedIds inputs' = CoinRequest.usedIds inputs ++ coinIds coins
  nodup : (coinIds coins).Nodup
  fresh : ∀ objectId ∈ coinIds coins, objectId ∉ CoinRequest.usedIds inputs

theorem Input.Takes.values {inputs inputs' : List Input} (hfront : inputs <+: inputs')
    (hused : CoinRequest.usedIds inputs' = CoinRequest.usedIds inputs) :
    Input.Takes inputs inputs' [] :=
  ⟨hfront, by simp [hused, coinIds], List.nodup_nil, by simp [coinIds]⟩

theorem Input.Takes.refl (inputs : List Input) : Input.Takes inputs inputs [] :=
  .values List.prefix_rfl rfl

theorem Input.Takes.trans {inputs mid inputs' : List Input} {coins coins' : List CoinInfo}
    (h : Input.Takes inputs mid coins) (h' : Input.Takes mid inputs' coins') :
    Input.Takes inputs inputs' (coins ++ coins') := by
  have hids : coinIds (coins ++ coins') = coinIds coins ++ coinIds coins' := List.map_append
  -- What is taken second is new beside the inputs and beside what was taken first.
  have hfresh : ∀ objectId ∈ coinIds coins',
      objectId ∉ CoinRequest.usedIds inputs ∧ objectId ∉ coinIds coins := by
    intro objectId hmem
    have hnew := h'.fresh objectId hmem
    rwa [h.used, List.mem_append, not_or] at hnew
  refine ⟨h.front.trans h'.front, ?_, ?_, ?_⟩
  · rw [h'.used, h.used, hids, List.append_assoc]
  · rw [hids]
    refine List.nodup_append.mpr ⟨h.nodup, h'.nodup, fun a ha b hb heq => ?_⟩
    exact (hfresh b hb).2 (heq ▸ ha)
  · rw [hids]
    intro objectId hmem
    rcases List.mem_append.mp hmem with hmem | hmem
    · exact h.fresh objectId hmem
    · exact (hfresh objectId hmem).1

theorem OwnedAt.mono {inputs inputs' : List Input} {slot : UInt16} {coin : CoinInfo}
    (hinputs : inputs <+: inputs') (h : OwnedAt inputs slot coin) : OwnedAt inputs' slot coin :=
  hinputs.getElem?_eq_some h

namespace CoinRequest

variable {σ : Type} {r : CoinRequest} {o : BuildOptions σ} {holds : σ → Prop}
  {tx tx' next : Transaction}

theorem pick_eq (needed total : Nat) (coins : List CoinInfo) :
    ∃ taken, taken <+: coins ∧ pick needed total coins = (taken.map (·.ref), total + worth taken) := by
  induction coins generalizing total with
  | nil => exact ⟨[], List.prefix_rfl, rfl⟩
  | cons coin coins ih =>
    unfold pick
    split_ifs
    · exact ⟨[], List.nil_prefix, rfl⟩
    · obtain ⟨taken, hfront, hpick⟩ := ih (total + coin.balance.toNat)
      refine ⟨coin :: taken, List.cons_prefix_cons.mpr ⟨rfl, hfront⟩, ?_⟩
      rw [hpick]
      simp [worth, Nat.add_assoc]

theorem takes_of_addObject {coin : CoinInfo} {a : Argument}
    (hfresh : coin.ref.objectId ∉ usedIds tx.inputs)
    (h : tx.addObject (.owned coin.ref) = .ok (a, tx')) :
    Input.Takes tx.inputs tx'.inputs [coin] ∧
      ∃ slot, a = .input slot ∧ OwnedAt tx'.inputs slot coin := by
  obtain ⟨⟨slot, inputs⟩, hinsert, heq⟩ := Except.map_eq_ok.mp h
  cases heq
  obtain ⟨rfl, hslot⟩ :=
    Input.insert_new_eq_ok (fun hmem => hfresh (Input.mem_usedIds_iff.mpr hmem)) hinsert
  refine ⟨⟨List.prefix_append _ _, ?_, List.nodup_singleton _, ?_⟩, slot, rfl, hslot⟩
  · simp [usedIds, coinIds, Input.objectId?, ObjectArg.objectId]
  · simpa [coinIds] using hfresh

theorem takes_of_addOwned {coins : List CoinInfo} {args : List Argument} (hnodup : (coinIds coins).Nodup)
    (hfresh : ∀ objectId ∈ coinIds coins, objectId ∉ usedIds tx.inputs)
    (h : addOwned tx (coins.map (·.ref)) = .ok (args, tx')) :
    tx.Adds tx' ∧ Input.Takes tx.inputs tx'.inputs coins ∧
      ∃ slots : List UInt16, args = slots.map .input ∧ List.Forall₂ (OwnedAt tx'.inputs) slots coins := by
  induction coins generalizing tx args with
  | nil =>
    cases h
    exact ⟨.refl, .refl _, [], rfl, .nil⟩
  | cons coin coins ih =>
    rw [List.map_cons] at h
    unfold addOwned at h
    obtain ⟨⟨a, mid⟩, hadd, h⟩ := Except.bind_eq_ok.mp h
    obtain ⟨⟨rest, tx''⟩, hrest, h⟩ := Except.bind_eq_ok.mp h
    cases h
    obtain ⟨hcoin, hcoins⟩ := List.nodup_cons.mp hnodup
    obtain ⟨hfirst, hothers⟩ := List.forall_mem_cons.mp hfresh
    obtain ⟨htakes, slot, rfl, hslot⟩ := takes_of_addObject hfirst hadd
    have hfresh' : ∀ objectId ∈ coinIds coins, objectId ∉ usedIds mid.inputs := by
      intro objectId hmem
      rw [htakes.used, List.mem_append, not_or]
      refine ⟨hothers objectId hmem, fun hsame => ?_⟩
      obtain rfl := List.mem_singleton.mp hsame
      exact hcoin hmem
    obtain ⟨hadds, htakes', slots, rfl, hslots⟩ := ih hcoins hfresh' hrest
    exact ⟨.head ⟨_, _, hadd⟩ hadds, htakes.trans htakes', slot :: slots, rfl,
      .cons (hslot.mono htakes'.front) hslots⟩

theorem takes_of_select {name : String} {args : List Argument} {w w' : World σ}
    (hdistinct : ∀ lookup, o.lookup = some lookup → lookup.DistinctCoins holds) (hw : holds w.peer)
    (h : (r.select name o tx).exec w = (.ok (args, tx'), w')) :
    ∃ coins, tx.Adds tx' ∧ Input.Takes tx.inputs tx'.inputs coins ∧
      o.Lists holds tx.sender r.coinType coins ∧ r.balance.toNat ≤ worth coins ∧
      ∃ slots : List UInt16, args = slots.map .input ∧ List.Forall₂ (OwnedAt tx'.inputs) slots coins := by
  obtain ⟨owner, lookup, found, peer', refs, total, hsender, hlookup, hfound, hpicked, henough,
    hadded⟩ := select_eq_ok h
  obtain ⟨coins, hfront, hpick⟩ := pick_eq r.balance.toNat 0
    (found.filter fun coin => !(usedIds tx.inputs).contains coin.ref.objectId)
  rw [hpick] at hpicked
  obtain ⟨rfl, rfl⟩ := Prod.mk.inj hpicked
  -- What was taken is a part of what the lookup lists, so its ids are distinct as well.
  have hsublist := hfront.sublist.trans (List.filter_sublist (l := found))
  have hnodup : (coinIds coins).Nodup :=
    (hdistinct lookup hlookup _ _ _ _ _ hw hfound).sublist (hsublist.map _)
  have hfresh : ∀ objectId ∈ coinIds coins, objectId ∉ usedIds tx.inputs := by
    intro objectId hmem
    obtain ⟨coin, hcoin, rfl⟩ := List.mem_map.mp hmem
    have hfree := List.mem_filter.mp (hfront.subset hcoin)
    simpa using hfree.2
  obtain ⟨hadds, htakes, hslots⟩ := takes_of_addOwned hnodup hfresh hadded
  exact ⟨coins, hadds, htakes, ⟨owner, lookup, _, found, peer', hsender, hlookup, hw, hfound, hsublist⟩,
    Nat.zero_add (worth coins) ▸ henough, hslots⟩

theorem takes_of_split {index : Nat} {before : List Command} {coin : Argument}
    (hlen : tx.inputs.length ≤ UInt16.size) (h : r.split tx index before coin = .ok next) :
    ∃ (mid : Transaction) (amount p : UInt16), tx.Adds mid ∧ Input.Takes tx.inputs mid.inputs [] ∧
      mid.inputs[amount.toNat]? = some (.pure (littleEndian 8 r.balance.toNat)) ∧
      p.toNat = index + before.length ∧
      mid.replaceCommand index (before ++ [.splitCoins coin [.input amount]])
        (some (.nestedResult p 0)) = .ok next := by
  obtain ⟨mid, a, p, hadd, hp, hreplace⟩ := split_eq_ok h
  obtain ⟨⟨amount, inputs⟩, hinsert, heq⟩ := Except.map_eq_ok.mp hadd
  cases heq
  obtain ⟨hfront, hused, hamount⟩ := Input.insert_pure_eq_ok hlen hinsert
  exact ⟨_, amount, p, .single ⟨_, _, hadd⟩, .values hfront hused, hamount, hp, hreplace⟩

/-! ### What supplies the coin -/

/-- The coins are native ones, however their type is written. -/
def IsNative (r : CoinRequest) : Prop :=
  TypeTag.normalize r.coinType = TypeTag.normalize TypeTag.nativeCoin

theorem isNative_iff (hcanonical : TypeTag.normalize r.coinType = .ok r.coinType) :
    r.isNative = true ↔ r.IsNative := by
  unfold isNative IsNative
  rw [decide_eq_true_iff, hcanonical]
  cases TypeTag.normalize TypeTag.nativeCoin <;> simp [Except.toOption, eq_comm]

/-- What supplies a coin of the balance: coins that are taken, commands at an index, and the argument that
names the coin. Without balance it is a new coin. A native coin is split from the coin that pays, unless
someone else pays; any other coin is split from one of the sender's, into which the other coins that are
taken are merged right before, and together they hold enough. -/
inductive Supplied (r : CoinRequest) (o : BuildOptions σ) (holds : σ → Prop) (sender : Option Address)
    (inputs : List Input) (place : Nat) : List CoinInfo → List Command → Argument → Prop
  | zero {p : UInt16} (hbalance : r.balance = 0) (hp : p.toNat = place) :
      Supplied r o holds sender inputs place [] [r.zeroCall] (.result p)
  | fee {amount p : UInt16} (hbalance : r.balance ≠ 0) (hfee : r.IsNative ∧ o.kindOnly = false)
      (hamount : inputs[amount.toNat]? = some (.pure (littleEndian 8 r.balance.toNat)))
      (hp : p.toNat = place) :
      Supplied r o holds sender inputs place [] [.splitCoins .feeObject [.input amount]]
        (.nestedResult p 0)
  | own {coins : List CoinInfo} {first amount p : UInt16} {others : List UInt16}
      (hbalance : r.balance ≠ 0) (hown : ¬(r.IsNative ∧ o.kindOnly = false))
      (hlists : o.Lists holds sender r.coinType coins) (hworth : r.balance.toNat ≤ worth coins)
      (hslots : List.Forall₂ (OwnedAt inputs) (first :: others) coins)
      (hamount : inputs[amount.toNat]? = some (.pure (littleEndian 8 r.balance.toNat)))
      (hp : p.toNat = place + (mergeInto (.input first) (others.map .input)).length) :
      Supplied r o holds sender inputs place coins
        (mergeInto (.input first) (others.map .input) ++ [.splitCoins (.input first) [.input amount]])
        (.nestedResult p 0)

variable {sender : Option Address} {inputs inputs' : List Input} {place : Nat} {coins : List CoinInfo}
  {commands : List Command} {t : Argument}

theorem Supplied.mono (hinputs : inputs <+: inputs')
    (h : r.Supplied o holds sender inputs place coins commands t) :
    r.Supplied o holds sender inputs' place coins commands t := by
  cases h with
  | zero hbalance hp => exact .zero hbalance hp
  | fee hbalance hfee hamount hp => exact .fee hbalance hfee (hinputs.getElem?_eq_some hamount) hp
  | own hbalance hown hlists hworth hslots hamount hp =>
    exact .own hbalance hown hlists hworth (hslots.imp fun _ _ hslot => hslot.mono hinputs)
      (hinputs.getElem?_eq_some hamount) hp

theorem Supplied.made (h : r.Supplied o holds sender inputs place coins commands t) :
    r.Made (Input.keys inputs) place commands t := by
  cases h with
  | zero hbalance hp => exact .zero hbalance hp
  | fee _ _ hamount hp =>
    exact .split (.inl rfl) (.inl rfl) (Input.keys_getElem?_eq_some.mpr ⟨_, hamount, rfl⟩) hp
  | @own _ first _ _ others _ _ _ _ hslots hamount hp =>
    cases hslots with
    | @cons _ coin _ _ hfirst _ =>
      exact .split (.inr ⟨first, coin.ref.objectId, rfl,
        Input.keys_getElem?_eq_some.mpr ⟨_, hfirst, rfl⟩⟩) (mergeInto_cases _ _)
        (Input.keys_getElem?_eq_some.mpr ⟨_, hamount, rfl⟩) hp

end CoinRequest

/-- **What the handler supplies.** Where the coins that are listed are distinct, it takes coins that no
input stands for, if it takes any, and puts the commands that supply the coin in the place of the intent. -/
theorem supplied_of_coinHandler {σ : Type} {o : BuildOptions σ} {holds : σ → Prop}
    {tx next : Transaction} {index : Nat} {i : Intent} {r : CoinRequest} {w w' : World σ}
    (hlen : tx.inputs.length ≤ UInt16.size) (hr : ofJson? i.data = some r)
    (hcanonical : TypeTag.normalize r.coinType = .ok r.coinType)
    (hdistinct : ∀ lookup, o.lookup = some lookup → lookup.DistinctCoins holds) (hw : holds w.peer)
    (h : (coinHandler tx index i o).exec w = (.ok next, w')) :
    ∃ mid coins commands t, tx.Adds mid ∧ Input.Takes tx.inputs mid.inputs coins ∧
      r.Supplied o holds tx.sender mid.inputs index coins commands t ∧
      mid.replaceCommand index commands (some t) = .ok next := by
  obtain ⟨r', hr', hhandled⟩ := CoinRequest.handled_of_coinHandler h
  obtain rfl := Option.some.inj (hr.symm.trans hr')
  have hsource : (r.isNative = true ∧ (!o.kindOnly) = true) ↔ r.IsNative ∧ o.kindOnly = false := by
    rw [CoinRequest.isNative_iff hcanonical, Bool.not_eq_true']
  cases hhandled with
  | zero hbalance hindex h =>
    exact ⟨tx, [], _, _, .refl, .refl _, .zero hbalance (UInt16.toNat_ofNat_of_lt' hindex), h⟩
  | fee hbalance hfee h =>
    obtain ⟨mid, amount, p, hadds, htakes, hamount, hp, hreplace⟩ := CoinRequest.takes_of_split hlen h
    exact ⟨mid, [], _, _, hadds, htakes, .fee hbalance (hsource.mp hfee) hamount hp, hreplace⟩
  | own hbalance hown hselect h =>
    obtain ⟨coins, hadds, htakes, hlists, hworth, slots, hargs, hslots⟩ :=
      CoinRequest.takes_of_select hdistinct hw hselect
    obtain ⟨first, others, rfl, rfl, rfl⟩ := List.map_eq_cons_iff.mp hargs.symm
    obtain ⟨mid, amount, p, hadds', hvalue, hamount, hp, hreplace⟩ :=
      CoinRequest.takes_of_split (hadds.moreInputs hlen).1 h
    have htakes' : Input.Takes tx.inputs mid.inputs coins :=
      List.append_nil coins ▸ htakes.trans hvalue
    refine ⟨mid, coins, _, _, hadds.trans hadds', htakes', .own hbalance
      (fun hn => hown (hsource.mpr hn)) hlists hworth (hslots.imp fun _ _ hslot => ?_) hamount hp,
      hreplace⟩
    exact hslot.mono hvalue.front

end ObjectLedger
