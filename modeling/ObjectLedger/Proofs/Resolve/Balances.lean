import ObjectLedger.Proofs.InMemory.Lookup
import ObjectLedger.Proofs.Resolve.Intents
import ObjectLedger.Proofs.Resolve.Selection

/-!
# Every intent gets its own coins

When all intents of a transaction ask for coins, each of them gives way to commands that supply a coin of
the balance, and whatever read its result reads that coin. The coins that are taken for one intent are no
inputs of the caller, and none of them is taken for another intent.
-/

namespace ObjectLedger

/-- Each intent among the commands that are dealt with has the coins that were taken for it, and a block
that supplies its coin from them, at the index where the block stands among the others. All these coins
together were taken beside the inputs of the caller. -/
structure Provided {σ : Type} (o : BuildOptions σ) (holds : σ → Prop) (tx : Transaction)
    (inputs : List Input) (done : List Command) (blocks : List Block) (taken : List (List CoinInfo)) :
    Prop where
  blocks_length : blocks.length = done.length
  taken_length : taken.length = done.length
  supplied : ∀ (k : Nat) (i : Intent), done[k]? = some (.intent i) →
    ∃ (r : CoinRequest) (coins : List CoinInfo) (front commands back : List Command) (t : Argument),
      ofJson? i.data = some r ∧ taken[k]? = some coins ∧ blocks[k]? = some ⟨commands, some t⟩ ∧
        Block.allCommands blocks = front ++ commands ++ back ∧
        r.Supplied o holds tx.sender inputs front.length coins commands t
  takes : Input.Takes tx.inputs inputs taken.flatten

namespace Provided

variable {σ : Type} {o : BuildOptions σ} {holds : σ → Prop} {tx : Transaction}
  {inputs inputs' : List Input} {done : List Command} {blocks : List Block}
  {taken : List (List CoinInfo)} {coins : List CoinInfo} {c : Command} {block : Block}

theorem start (o : BuildOptions σ) (holds : σ → Prop) (tx : Transaction) :
    Provided o holds tx tx.inputs [] [] [] where
  blocks_length := rfl
  taken_length := rfl
  supplied := fun _ _ h => by cases h
  takes := .refl _

theorem concat (h : Provided o holds tx inputs done blocks taken) (htakes : Input.Takes inputs inputs' coins)
    (hc : ∀ i, c = .intent i → ∃ r t, ofJson? i.data = some r ∧ block.result = some t ∧
      CoinRequest.Supplied r o holds tx.sender inputs' (Block.allCommands blocks).length coins
        block.commands t) :
    Provided o holds tx inputs' (done ++ [c]) (blocks ++ [block]) (taken ++ [coins]) := by
  have hall : Block.allCommands (blocks ++ [block]) = Block.allCommands blocks ++ block.commands := by
    simp [Block.allCommands]
  refine ⟨by simp [h.blocks_length], by simp [h.taken_length], fun k i hk => ?_, ?_⟩
  · rcases Nat.lt_or_ge k done.length with hlt | hge
    · rw [List.getElem?_append_left hlt] at hk
      obtain ⟨r, coins', front, commands, back, t, hr, htaken, hblock, hcommands, hsupplied⟩ :=
        h.supplied k i hk
      refine ⟨r, coins', front, commands, back ++ block.commands, t, hr, ?_, ?_, ?_,
        hsupplied.mono htakes.front⟩
      · rwa [List.getElem?_append_left (h.taken_length ▸ hlt)]
      · rwa [List.getElem?_append_left (h.blocks_length ▸ hlt)]
      · rw [hall, hcommands, List.append_assoc]
    · have hlast := (List.getElem?_eq_some_iff.mp hk).1
      rw [List.length_append, List.length_singleton] at hlast
      obtain rfl : k = done.length := by omega
      rw [List.getElem?_append_right (Nat.le_refl _), Nat.sub_self] at hk
      obtain ⟨r, t, hr, ht, hsupplied⟩ := hc i (Option.some.inj hk)
      refine ⟨r, coins, Block.allCommands blocks, block.commands, [], t, hr, ?_, ?_, ?_, hsupplied⟩
      · rw [← h.taken_length, List.getElem?_append_right (Nat.le_refl _), Nat.sub_self]
        rfl
      · rw [← h.blocks_length, List.getElem?_append_right (Nat.le_refl _), Nat.sub_self, ← ht]
        rfl
      · rw [hall, List.append_nil]
  · rw [List.flatten_append, List.flatten_singleton]
    exact h.takes.trans htakes

end Provided

/-- All intents of a transaction ask for coins, of types in their canonical form. -/
def Transaction.AsksForCoins {σ : Type} (tx : Transaction) (registry : IntentRegistry σ) : Prop :=
  ∀ i, .intent i ∈ tx.commands → registry.get? i.name = some coinHandler ∧
    ∃ r : CoinRequest, ofJson? i.data = some r ∧ TypeTag.normalize r.coinType = .ok r.coinType

/-- Some commands are dealt with, and their intents are supplied. -/
def Serving {σ : Type} (registry : IntentRegistry σ) (o : BuildOptions σ) (holds : σ → Prop)
    (tx cur : Transaction) : Prop :=
  ∃ done rest blocks tail taken, Underway registry tx cur done rest blocks tail ∧
    Provided o holds tx cur.inputs done blocks taken

namespace Serving

variable {σ : Type} {registry : IntentRegistry σ} {o : BuildOptions σ} {holds : σ → Prop}
  {tx cur next : Transaction} {w w' : World σ}

theorem advance (h : Serving registry o holds tx cur) (hvalid : tx.validate = .ok ()) :
    ∃ done rest blocks tail taken, Underway registry tx cur done rest blocks tail ∧
      Provided o holds tx cur.inputs done blocks taken ∧
      (rest = [] ∨ ∃ i rest', rest = .intent i :: rest') := by
  obtain ⟨done, rest, blocks, tail, taken, hunderway, hprovided⟩ := h
  obtain ⟨done, rest, blocks, tail, hunderway, ⟨taken, hprovided⟩, hrest⟩ := hunderway.advance_induct
    (Q := fun done blocks => ∃ taken, Provided o holds tx cur.inputs done blocks taken)
    (fun done blocks c block hc ⟨taken, hprovided⟩ => by
      refine ⟨taken ++ [[]], hprovided.concat (.refl cur.inputs) fun i hi => ?_⟩
      rw [hi] at hc
      cases hc) hvalid ⟨taken, hprovided⟩
  exact ⟨done, rest, blocks, tail, taken, hunderway, hprovided, hrest⟩

/-- **One turn of the loop.** The first intent is supplied, and the condition is kept. -/
theorem step {index : Nat} {i' : Intent} {handler : IntentHandler σ}
    (h : Serving registry o holds tx cur) (hvalid : tx.validate = .ok ())
    (hasks : tx.AsksForCoins registry)
    (hdistinct : ∀ lookup, o.lookup = some lookup → lookup.DistinctCoins holds) (ho : o.Keeps holds)
    (hw : holds w.peer) (hfirst : cur.firstIntent? = some (index, i'))
    (hhandler : registry.get? i'.name = some handler)
    (hnext : (handler cur index i' o).exec w = (.ok next, w')) :
    Serving registry o holds tx next ∧ holds w'.peer := by
  obtain ⟨done, rest, blocks, tail, taken, hunderway, hprovided, hrest⟩ := h.advance hvalid
  obtain ⟨i, rest, inputs, tail, rfl, rfl, rfl, rfl, hmem⟩ :=
    hunderway.next_of_firstIntent hrest hfirst
  obtain ⟨hcoin, r, hr, hcanonical⟩ := hasks i hmem
  obtain rfl := Option.some.inj (hcoin.symm.trans hhandler)
  have hinputs : cur.inputs.length ≤ UInt16.size := (Transaction.validate_eq_ok.mp hunderway.valid).1
  obtain ⟨mid, coins, commands, t, hadds, htakes, hsupplied, hreplace⟩ :=
    supplied_of_coinHandler hinputs hr hcanonical hdistinct hw hnext
  obtain ⟨tail', hunderway'⟩ := hunderway.replace hvalid (hadds.moreInputs hinputs)
    (.coin hcoin hr hsupplied.made) hreplace
  have hinputs' : next.inputs = mid.inputs := by
    obtain ⟨-, -, tail'', -, rfl, -⟩ := Transaction.replaceCommand_eq_ok.mp hreplace
    rfl
  rw [hunderway.keeps.sender] at hsupplied
  refine ⟨⟨_, _, _, _, taken ++ [coins], hunderway', ?_⟩,
    Build.Keeps.of_eq (keeps_coinHandler o cur _ _ ho) hnext hw⟩
  rw [hinputs']
  refine hprovided.concat htakes fun i' hi => ?_
  cases hi
  exact ⟨r, t, hr, rfl, hsupplied⟩

end Serving

/-- **Intents for coins get coins of their balance.** When all intents of a valid transaction ask for coins,
its commands become blocks that make up the new ones. The block of an intent supplies a coin of the balance,
and whatever read the result of the intent reads this coin. The coins that are taken for all the intents
together are distinct, and none of them is an input of the caller. -/
theorem provided_of_resolveIntents {σ : Type} {registry : IntentRegistry σ} {o : BuildOptions σ}
    {holds : σ → Prop} {tx tx' : Transaction} {w w' : World σ} (hvalid : tx.validate = .ok ())
    (hasks : tx.AsksForCoins registry)
    (hdistinct : ∀ lookup, o.lookup = some lookup → lookup.DistinctCoins holds) (ho : o.Keeps holds)
    (hw : holds w.peer) (h : (resolveIntents registry o tx).exec w = (.ok tx', w')) :
    ∃ blocks taken, tx'.commands = Block.allCommands blocks ∧
      Block.Laid (Settled registry (Input.keys tx'.inputs) (Block.targets blocks)) 0 tx.commands blocks ∧
      Provided o holds tx tx'.inputs tx.commands blocks taken := by
  obtain ⟨⟨hserving, -⟩, hnone⟩ := resolveIntents_induct
    (P := fun cur w => Serving registry o holds tx cur ∧ holds w.peer)
    (fun cur index i handler next w w' hcur hfirst hhandler hnext =>
      hcur.1.step hvalid hasks hdistinct ho hcur.2 hfirst hhandler hnext)
    ⟨⟨_, _, _, _, _, .start registry hvalid, .start o holds tx⟩, hw⟩ h
  obtain ⟨done, rest, blocks, tail, taken, hunderway, hprovided, hrest⟩ := hserving.advance hvalid
  rcases hrest with rfl | ⟨i, rest, rfl⟩
  · obtain rfl := List.forall₂_nil_left_iff.mp hunderway.pending
    have hdone : tx.commands = done := hunderway.split.trans (List.append_nil done)
    rw [hdone]
    exact ⟨blocks, taken, by rw [hunderway.commands, List.append_nil], hunderway.settled, hprovided⟩
  · obtain ⟨inputs, tail', -, hfirst⟩ := hunderway.firstIntent_eq_some
    rw [hfirst] at hnone
    cases hnone

namespace Provided

/-- The type of a coin, in its canonical form. -/
def usd : String := "0x0000000000000000000000000000000000000000000000000000000000000005::usd::USD"

def purse : InMemory where
  coins := [((.ofUInt64 1, usd), [⟨⟨.ofUInt64 7, 1, ⟨.zero⟩⟩, 3⟩, ⟨⟨.ofUInt64 8, 1, ⟨.zero⟩⟩, 4⟩,
    ⟨⟨.ofUInt64 9, 1, ⟨.zero⟩⟩, 6⟩])]

/-- The type of the native coin, in its canonical form. -/
def native : String := "0x0000000000000000000000000000000000000000000000000000000000000002::sui::SUI"

def asking (coinType : String) (balance : UInt64) : Command :=
  .intent ⟨coinWithBalance, [], .object [("balance", toJson balance), ("type", .text coinType)]⟩

/-- Four intents, and a command that reads their results. -/
def asked : Transaction where
  sender := some (.ofUInt64 1)
  inputs := [.pure [1]]
  commands := [asking usd 5, asking native 9, asking usd 0, asking usd 2,
    .transferObjects [.result 0, .result 1, .result 2, .result 3] (.input 0)]

/-- The first intent takes two coins and merges them, the last one the third coin. -/
def served : Transaction where
  sender := some (.ofUInt64 1)
  inputs := [.pure [1], .object (.owned ⟨.ofUInt64 7, 1, ⟨.zero⟩⟩),
    .object (.owned ⟨.ofUInt64 8, 1, ⟨.zero⟩⟩), .pure [5, 0, 0, 0, 0, 0, 0, 0],
    .pure [9, 0, 0, 0, 0, 0, 0, 0], .object (.owned ⟨.ofUInt64 9, 1, ⟨.zero⟩⟩),
    .pure [2, 0, 0, 0, 0, 0, 0, 0]]
  commands := [.mergeCoins (.input 1) [.input 2], .splitCoins (.input 1) [.input 3],
    .splitCoins .feeObject [.input 4], CoinRequest.zeroCall ⟨usd, 0⟩,
    .splitCoins (.input 5) [.input 6],
    .transferObjects [.nestedResult 1 0, .nestedResult 2 0, .result 3, .nestedResult 4 0] (.input 0)]

theorem distinctCoins_purse (lookup : Lookup InMemory) (h : InMemory.options.lookup = some lookup) :
    lookup.DistinctCoins purse.Asked := by
  cases h
  refine (InMemory.answersFrom_lookup purse).distinctCoins fun owner coinType coins h => ?_
  cases h
  unfold purse
  rw [Table.get?_cons]
  split_ifs
  · decide +kernel
  · exact List.nodup_nil

theorem asksForCoins_asked : asked.AsksForCoins (.standard : IntentRegistry InMemory) := by
  have husd : TypeTag.normalize usd = .ok usd := by decide +kernel
  have hnative : TypeTag.normalize native = .ok native := by decide +kernel
  intro i hi
  simp only [asked, asking, List.mem_cons, Command.intent.injEq, reduceCtorEq, List.not_mem_nil,
    or_false] at hi
  rcases hi with rfl | rfl | rfl | rfl
  · exact ⟨rfl, ⟨usd, 5⟩, by decide +kernel, husd⟩
  · exact ⟨rfl, ⟨native, 9⟩, by decide +kernel, hnative⟩
  · exact ⟨rfl, ⟨usd, 0⟩, by decide +kernel, husd⟩
  · exact ⟨rfl, ⟨usd, 2⟩, by decide +kernel, husd⟩

theorem provided_of_resolveIntents_asked :
    asked.validate = .ok () ∧ asked.AsksForCoins (.standard : IntentRegistry InMemory) ∧
      (∀ lookup, InMemory.options.lookup = some lookup → lookup.DistinctCoins purse.Asked) ∧
      InMemory.options.Keeps purse.Asked ∧ purse.Asked purse ∧
      (∃ w', (resolveIntents .standard InMemory.options asked).exec ⟨purse, {}, 0⟩ = (.ok served, w')) ∧
      ∃ blocks taken, served.commands = Block.allCommands blocks ∧
        Block.Laid (Settled (.standard : IntentRegistry InMemory) (Input.keys served.inputs)
          (Block.targets blocks)) 0 asked.commands blocks ∧
        Provided InMemory.options purse.Asked asked served.inputs asked.commands blocks taken := by
  have hvalid : asked.validate = .ok () := by decide +kernel
  have hkeeps := InMemory.keeps_options purse
  have hpurse := InMemory.Asked.refl purse
  have hrun : (resolveIntents .standard InMemory.options asked).exec ⟨purse, {}, 0⟩ =
      (.ok served, ((resolveIntents .standard InMemory.options asked).exec ⟨purse, {}, 0⟩).2) :=
    Prod.ext (by decide +kernel) rfl
  exact ⟨hvalid, asksForCoins_asked, distinctCoins_purse, hkeeps, hpurse, ⟨_, hrun⟩,
    provided_of_resolveIntents hvalid asksForCoins_asked distinctCoins_purse hkeeps hpurse hrun⟩

end Provided

end ObjectLedger
