import ObjectLedger.Proofs.Resolve.Coins

/-!
# What commands become when intents are handled

Intents are handled from the front. At each moment the commands are the blocks of those that are dealt
with, and behind them the others, whose arguments follow the blocks. So at the end each command that is
not an intent is still there, in order, each of its arguments naming what it named before.
-/

namespace ObjectLedger

/-! ### The loop -/

section Loop

variable {σ : Type} {registry : IntentRegistry σ} {o : BuildOptions σ} {fuel : Nat}
  {tx tx' : Transaction} {w w' : World σ}

theorem resolveIntentsWithin_eq_ok
    (h : (resolveIntentsWithin registry o fuel tx).exec w = (.ok tx', w')) :
    (tx.firstIntent? = none ∧ tx' = tx ∧ w' = w) ∨
      ∃ index i handler fuel' next w₁, tx.firstIntent? = some (index, i) ∧
        registry.get? i.name = some handler ∧ fuel = fuel' + 1 ∧
        (handler tx index i o).exec w = (.ok next, w₁) ∧
        (resolveIntentsWithin registry o fuel' next).exec w₁ = (.ok tx', w') := by
  unfold resolveIntentsWithin at h
  cases hfirst : tx.firstIntent? with
  | none =>
    simp only [hfirst] at h
    obtain ⟨rfl, rfl⟩ := Build.exec_pure_eq_ok.mp h
    exact .inl ⟨rfl, rfl, rfl⟩
  | some first =>
    obtain ⟨index, i⟩ := first
    simp only [hfirst] at h
    cases hhandler : registry.get? i.name with
    | none =>
      simp only [hhandler] at h
      exact absurd h Build.exec_throw_ne_ok
    | some handler =>
      simp only [hhandler] at h
      cases fuel with
      | zero => exact absurd h Build.exec_throw_ne_ok
      | succ fuel' =>
        obtain ⟨next, w₁, hnext, h⟩ := Build.exec_bind_eq_ok.mp h
        split_ifs at h with hcount
        · exact absurd h Build.exec_throw_ne_ok
        · exact .inr ⟨index, i, handler, fuel', next, w₁, rfl, hhandler, rfl, hnext, h⟩

/-- What every handler keeps, the loop keeps, and it ends without intents. -/
theorem resolveIntentsWithin_induct {P : Transaction → World σ → Prop}
    (hstep : ∀ tx index i handler next w w', P tx w → tx.firstIntent? = some (index, i) →
      registry.get? i.name = some handler → (handler tx index i o).exec w = (.ok next, w') → P next w')
    (htx : P tx w) (h : (resolveIntentsWithin registry o fuel tx).exec w = (.ok tx', w')) :
    P tx' w' ∧ tx'.firstIntent? = none := by
  -- The fuel falls by one with each turn that does not end the loop.
  induction fuel generalizing tx w with
  | zero =>
    rcases resolveIntentsWithin_eq_ok h with ⟨hnone, rfl, rfl⟩ | ⟨_, _, _, _, _, _, _, _, hfuel, _⟩
    · exact ⟨htx, hnone⟩
    · cases hfuel
  | succ fuel ih =>
    rcases resolveIntentsWithin_eq_ok h with
      ⟨hnone, rfl, rfl⟩ | ⟨index, i, handler, fuel', next, w₁, hfirst, hhandler, hfuel, hnext, h⟩
    · exact ⟨htx, hnone⟩
    · obtain rfl := Nat.succ.inj hfuel
      exact ih (hstep _ _ _ _ _ _ _ htx hfirst hhandler hnext) h

theorem resolveIntents_induct {P : Transaction → World σ → Prop}
    (hstep : ∀ tx index i handler next w w', P tx w → tx.firstIntent? = some (index, i) →
      registry.get? i.name = some handler → (handler tx index i o).exec w = (.ok next, w') → P next w')
    (htx : P tx w) (h : (resolveIntents registry o tx).exec w = (.ok tx', w')) :
    P tx' w' ∧ tx'.firstIntent? = none := by
  unfold resolveIntents at h
  split at h
  · exact absurd h Build.exec_throw_ne_ok
  · exact resolveIntentsWithin_induct hstep htx h

end Loop

theorem callbackHandler_eq_ok {σ : Type} {call : Json → σ → Except String Unit × σ}
    {o : BuildOptions σ} {tx next : Transaction} {index : Nat} {i : Intent} {w w' : World σ}
    (h : (callbackHandler call tx index i o).exec w = (.ok next, w')) :
    tx.replaceCommand index [] none = .ok next := by
  unfold callbackHandler Build.exec ExceptT.run StateT.run ExceptT.mk at h
  beta_reduce at h
  rcases hcall : call i.data w.peer with ⟨reason | ⟨⟩, peer⟩
  · rw [hcall] at h
    cases h
  · rw [hcall] at h
    exact (Prod.mk.inj h).1

/-! ### The first intent -/

namespace Transaction

theorem firstIntentFrom_append {cs ds : List Command} {n : Nat}
    (h : ∀ c ∈ cs, isIntent c = false) :
    firstIntentFrom n (cs ++ ds) = firstIntentFrom (n + cs.length) ds := by
  induction cs generalizing n with
  | nil => rfl
  | cons c cs ih =>
    obtain ⟨hc, hcs⟩ := List.forall_mem_cons.mp h
    have hskip : firstIntentFrom n (c :: (cs ++ ds)) = firstIntentFrom (n + 1) (cs ++ ds) := by
      cases c with
      | intent i => cases hc
      | _ => rfl
    rw [List.cons_append, hskip, ih hcs, List.length_cons, Nat.add_right_comm, Nat.add_assoc]

end Transaction

theorem Command.Maps.isIntent_eq {R : Argument → Argument → Prop} {c c' : Command}
    (h : Command.Maps R c c') : Transaction.isIntent c' = Transaction.isIntent c := by
  cases h <;> rfl

/-! ### What each command became -/

/-- The names of the handlers are those of the handler for coins, or of callbacks. -/
def IntentRegistry.Handles {σ : Type} (registry : IntentRegistry σ) (name : String) : Prop :=
  registry.get? name = some coinHandler ∨
    ∃ call, registry.get? name = some (callbackHandler call)

/-- What becomes of a command at an index: one that is not an intent stays, with arguments that follow
the blocks; an intent gives way to nothing, or to the commands that make its coin. -/
inductive Settled {σ : Type} (registry : IntentRegistry σ) (keys : List Input.Key)
    (targets : List (Option Argument)) (place : Nat) : Command → Block → Prop
  | kept {c c' : Command} {p : UInt16} (hc : Transaction.isIntent c = false)
      (h : Command.Maps (Argument.Follows (Argument.Named targets)) c c') (hp : p.toNat = place) :
      Settled registry keys targets place c ⟨[c'], some (.result p)⟩
  | removed {i : Intent} {call : Json → σ → Except String Unit × σ}
      (h : registry.get? i.name = some (callbackHandler call)) :
      Settled registry keys targets place (.intent i) ⟨[], none⟩
  | coin {i : Intent} {r : CoinRequest} {commands : List Command} {t : Argument}
      (h : registry.get? i.name = some coinHandler) (hr : ofJson? i.data = some r)
      (hmade : r.Made keys place commands t) :
      Settled registry keys targets place (.intent i) ⟨commands, some t⟩

section Settled

variable {σ : Type} {registry : IntentRegistry σ} {keys keys' : List Input.Key}
  {targets more : List (Option Argument)} {place : Nat} {c : Command} {block : Block}

theorem Settled.mono (hkeys : keys <+: keys') (h : Settled registry keys targets place c block) :
    Settled registry keys' (targets ++ more) place c block := by
  cases h with
  | kept hc h hp =>
    exact .kept hc (h.imp_of_mem fun a b _ hab => hab.imp fun k _ t ht => ht.append) hp
  | removed h => exact .removed h
  | coin h hr hmade => exact .coin h hr (hmade.mono hkeys)

theorem Settled.below (h : Settled registry keys targets place c block) {t : Argument}
    (ht : block.result = some t) : t.Below (place + block.commands.length) := by
  cases h with
  | kept _ _ hp =>
    cases ht
    intro k hk
    cases hk
    rw [List.length_singleton]
    omega
  | removed => cases ht
  | coin _ _ hmade =>
    cases ht
    exact hmade.below

theorem Settled.isIntent_eq_false (h : Settled registry keys targets place c block) :
    ∀ d ∈ block.commands, Transaction.isIntent d = false := by
  cases h with
  | kept hc h => simpa using h.isIntent_eq.trans hc
  | removed => simp
  | coin _ _ hmade => exact hmade.isIntent_eq_false

end Settled

/-! ### The invariant -/

/-- What stands for the results of commands that became blocks. -/
def Block.targets (blocks : List Block) : List (Option Argument) := blocks.map (·.result)

/-- The commands of a transaction are partly dealt with: some became blocks, the rest stands behind
them and follows them. -/
structure Underway {σ : Type} (registry : IntentRegistry σ) (tx cur : Transaction)
    (done rest : List Command) (blocks : List Block) (tail : List Command) : Prop where
  split : tx.commands = done ++ rest
  settled : Block.Laid (Settled registry (Input.keys cur.inputs) (Block.targets blocks)) 0 done blocks
  commands : cur.commands = Block.allCommands blocks ++ tail
  pending : List.Forall₂ (Command.Maps (Argument.Follows
    (Argument.Pending (Block.targets blocks) (Block.allCommands blocks).length))) rest tail
  below : ∀ t, some t ∈ Block.targets blocks → t.Below (Block.allCommands blocks).length
  noIntent : ∀ c ∈ Block.allCommands blocks, Transaction.isIntent c = false
  keeps : tx.Keeps cur
  valid : cur.validate = .ok ()

namespace Underway

variable {σ : Type} {registry : IntentRegistry σ} {o : BuildOptions σ} {tx cur next : Transaction}
  {done rest tail : List Command} {blocks : List Block} {c c' : Command} {block : Block}
  {i i' : Intent}

theorem start (registry : IntentRegistry σ) (hvalid : tx.validate = .ok ()) :
    Underway registry tx tx [] tx.commands [] tx.commands where
  split := rfl
  settled := .nil
  commands := rfl
  pending := by
    refine List.forall₂_same.mpr fun c _ => Command.maps_self (fun a => ?_) c
    cases a with
    | feeObject => rfl
    | input j => rfl
    | result k => exact Argument.pending_nil
    | nestedResult k j => exact ⟨k, Argument.pending_nil, rfl⟩
  below := by simp [Block.targets]
  noIntent := by simp [Block.allCommands]
  keeps := .refl tx
  valid := hvalid

theorem refs_of_next (h : Underway registry tx cur done (c :: rest) blocks tail)
    (hvalid : tx.validate = .ok ()) {a : Argument} (ha : a ∈ c.arguments) {k : UInt16}
    (hk : a.command? = some k) : k.toNat < (Block.targets blocks).length := by
  obtain ⟨-, -, hrefs⟩ := Transaction.validate_eq_ok.mp hvalid
  rw [h.split, Command.refsWithin_append, Nat.zero_add, Command.refsWithin_cons] at hrefs
  rw [Block.targets, List.length_map, ← h.settled.length_eq]
  exact (hrefs.2.1 a ha).lt_of_command hk

theorem refs_of_rest (h : Underway registry tx cur done rest blocks tail)
    (hvalid : tx.validate = .ok ()) {d : Command} (hd : d ∈ rest) {a : Argument}
    (ha : a ∈ d.arguments) {k : UInt16} (hk : a.command? = some k) :
    k.toNat < (Block.targets blocks).length + rest.length := by
  obtain ⟨-, -, hrefs⟩ := Transaction.validate_eq_ok.mp hvalid
  rw [h.split, Command.refsWithin_append, Nat.zero_add] at hrefs
  obtain ⟨n, hn, rfl⟩ := List.getElem_of_mem hd
  have hmem : (rest[n], done.length + n) ∈ rest.zipIdx done.length := by
    rw [List.mk_add_mem_zipIdx_iff_getElem?, List.getElem?_eq_getElem hn]
  have hkn := (hrefs.2 _ hmem a ha).lt_of_command hk
  rw [Block.targets, List.length_map, ← h.settled.length_eq]
  omega

theorem settle (h : Underway registry tx cur done (c :: rest) blocks tail) {keys : List Input.Key}
    (hkeys : Input.keys cur.inputs <+: keys)
    (hblock : Settled registry keys (Block.targets (blocks ++ [block]))
      (Block.allCommands blocks).length c block) :
    Block.Laid (Settled registry keys (Block.targets (blocks ++ [block]))) 0 (done ++ [c])
        (blocks ++ [block]) ∧
      (∀ t, some t ∈ Block.targets (blocks ++ [block]) →
        t.Below (Block.allCommands (blocks ++ [block])).length) ∧
      ∀ d ∈ Block.allCommands (blocks ++ [block]), Transaction.isIntent d = false := by
  have hlength : (Block.allCommands (blocks ++ [block])).length =
      (Block.allCommands blocks).length + block.commands.length := by
    simp [Block.allCommands]
  refine ⟨?_, fun t ht => ?_, fun d hd => ?_⟩
  · have hold : Block.Laid (Settled registry keys (Block.targets blocks ++ [block.result])) 0 done
        blocks := h.settled.imp_of_mem fun place d b _ _ hd => hd.mono hkeys
    rw [Block.targets, List.map_append] at hblock ⊢
    exact hold.concat (by rwa [Nat.zero_add])
  · rw [hlength]
    rw [Block.targets, List.map_append, List.mem_append] at ht
    rcases ht with ht | ht
    · exact (h.below t ht).mono (Nat.le_add_right _ _)
    · rw [List.map_singleton, List.mem_singleton] at ht
      exact hblock.below ht.symm
  · rw [Block.allCommands, List.flatMap_append, List.mem_append] at hd
    rcases hd with hd | hd
    · exact h.noIntent d hd
    · exact hblock.isIntent_eq_false d (by simpa using hd)

theorem keep (h : Underway registry tx cur done (c :: rest) blocks (c' :: tail))
    (hvalid : tx.validate = .ok ()) (hc : Transaction.isIntent c = false) :
    ∃ block, Underway registry tx cur (done ++ [c]) rest (blocks ++ [block]) tail := by
  obtain ⟨-, hcount, -⟩ := Transaction.validate_eq_ok.mp h.valid
  have hroom : (Block.allCommands blocks).length < UInt16.size := by
    rw [h.commands, List.length_append, List.length_cons] at hcount
    have hsize : maxEntries = UInt16.size := rfl
    omega
  have hp := UInt16.toNat_ofNat_of_lt' hroom
  generalize UInt16.ofNat (Block.allCommands blocks).length = p at hp
  cases h.pending with
  | cons hhead hpending =>
    -- The command is next, so nothing that it reads from is still to come.
    have hmaps : Command.Maps (Argument.Follows (Argument.Named (Block.targets blocks))) c c' := by
      refine hhead.imp_of_mem fun a b ha hab => hab.imp fun k hk t ht => ?_
      exact ht.named (h.refs_of_next hvalid ha hk)
    have hsettled : Settled registry (Input.keys cur.inputs)
        (Block.targets (blocks ++ [⟨[c'], some (.result p)⟩])) (Block.allCommands blocks).length c
        ⟨[c'], some (.result p)⟩ := by
      rw [Block.targets, List.map_append]
      exact .mono List.prefix_rfl (.kept hc hmaps hp)
    obtain ⟨hlaid, hbelow, hnoIntent⟩ := h.settle List.prefix_rfl hsettled
    refine ⟨_, ?_, hlaid, ?_, ?_, hbelow, hnoIntent, h.keeps, h.valid⟩
    · rw [h.split, List.append_assoc, List.singleton_append]
    · rw [h.commands, Block.allCommands, Block.allCommands, List.flatMap_append, List.append_assoc]
      rfl
    · refine hpending.imp fun d d' hd => hd.imp_of_mem fun a b _ hab => hab.imp fun k _ t ht => ?_
      simpa [Block.targets, Block.allCommands] using ht.keep hp

/-- The commands up to the next intent stay where they are, and with each of them goes what is kept when a
command that is not an intent becomes a block. -/
theorem advance_induct {Q : List Command → List Block → Prop}
    (hQ : ∀ done blocks c block, Transaction.isIntent c = false → Q done blocks →
      Q (done ++ [c]) (blocks ++ [block]))
    (h : Underway registry tx cur done rest blocks tail) (hvalid : tx.validate = .ok ())
    (hq : Q done blocks) :
    ∃ done' rest' blocks' tail', Underway registry tx cur done' rest' blocks' tail' ∧
      Q done' blocks' ∧ (rest' = [] ∨ ∃ i rest'', rest' = .intent i :: rest'') := by
  induction rest generalizing done blocks tail with
  | nil => exact ⟨_, _, _, _, h, hq, .inl rfl⟩
  | cons c rest ih =>
    cases hc : Transaction.isIntent c with
    | true =>
      cases c with
      | intent i => exact ⟨_, _, _, _, h, hq, .inr ⟨i, rest, rfl⟩⟩
      | _ => cases hc
    | false =>
      obtain ⟨c', tail', -, -, rfl⟩ := List.forall₂_cons_left_iff.mp h.pending
      obtain ⟨block, h'⟩ := h.keep hvalid hc
      exact ih h' (hQ _ _ _ block hc hq)

theorem advance (h : Underway registry tx cur done rest blocks tail)
    (hvalid : tx.validate = .ok ()) :
    ∃ done' rest' blocks' tail', Underway registry tx cur done' rest' blocks' tail' ∧
      (rest' = [] ∨ ∃ i rest'', rest' = .intent i :: rest'') := by
  obtain ⟨done', rest', blocks', tail', h', -, hrest⟩ :=
    h.advance_induct (Q := fun _ _ => True) (fun _ _ _ _ _ _ => trivial) hvalid trivial
  exact ⟨done', rest', blocks', tail', h', hrest⟩

theorem replace {mid : Transaction} {commands : List Command} {res : Option Argument}
    (h : Underway registry tx cur done (.intent i :: rest) blocks (c' :: tail))
    (hvalid : tx.validate = .ok ()) (hmore : cur.MoreInputs mid)
    (hsettled : Settled registry (Input.keys mid.inputs)
      (Block.targets (blocks ++ [⟨commands, res⟩])) (Block.allCommands blocks).length (.intent i)
      ⟨commands, res⟩)
    (hnext : mid.replaceCommand (Block.allCommands blocks).length commands res = .ok next) :
    ∃ tail', Underway registry tx next (done ++ [.intent i]) rest (blocks ++ [⟨commands, res⟩])
      tail' := by
  obtain ⟨-, -, tail', htail, hnextEq, hnextValid⟩ := Transaction.replaceCommand_eq_ok.mp hnext
  have hmid : mid.commands = Block.allCommands blocks ++ c' :: tail :=
    hmore.commands.trans h.commands
  have htake : mid.commands.take (Block.allCommands blocks).length = Block.allCommands blocks := by
    rw [hmid, List.take_left]
  have hdrop : mid.commands.drop ((Block.allCommands blocks).length + 1) = tail := by
    rw [hmid, List.drop_append]
    simp
  rw [hdrop] at htail
  rw [htake] at hnextEq
  have hinputs : next.inputs = mid.inputs := by rw [hnextEq]
  -- The commands that stand there now were counted, so that no index behind the block wraps.
  have hroom : (Block.allCommands blocks).length + commands.length + rest.length ≤ UInt16.size := by
    have hcount : next.commands.length ≤ UInt16.size :=
      (Transaction.validate_eq_ok.mp hnextValid).2.1
    cases h.pending with
    | cons _ hpending =>
      rw [hnextEq, List.length_append, List.length_append, ← htail.length_eq] at hcount
      rw [hpending.length_eq]
      exact hcount
  obtain ⟨hlaid, hbelow, hnoIntent⟩ := h.settle hmore.2.1 hsettled
  rw [← hinputs] at hlaid
  refine ⟨tail', ?_, hlaid, ?_, ?_, hbelow, hnoIntent, ?_, hnextValid⟩
  · rw [h.split, List.append_assoc, List.singleton_append]
  · rw [hnextEq]
    simp [Block.allCommands]
  · cases h.pending with
    | cons _ hpending =>
      refine hpending.comp_of_mem htail fun d e f hd hde hef =>
        hde.comp_of_mem hef fun a b b' ha hab hb => hab.redirect hb fun k hk t t' ht htt' => ?_
      have hlt := h.refs_of_rest hvalid (List.mem_cons_of_mem _ hd) ha hk
      rw [List.length_cons] at hlt
      simpa [Block.targets, Block.allCommands] using ht.replace htt' h.below (by omega) hroom
  · exact (h.keeps.trans hmore.keeps).trans (Transaction.keeps_of_replaceCommand hnext)

theorem firstIntent_eq_none (h : Underway registry tx cur done [] blocks tail) :
    cur.firstIntent? = none := by
  obtain rfl := List.forall₂_nil_left_iff.mp h.pending
  rw [Transaction.firstIntent?, h.commands, Transaction.firstIntentFrom_append h.noIntent]
  rfl

theorem firstIntent_eq_some (h : Underway registry tx cur done (.intent i :: rest) blocks tail) :
    ∃ inputs tail', tail = .intent { i with inputs } :: tail' ∧
      cur.firstIntent? = some ((Block.allCommands blocks).length, { i with inputs }) := by
  obtain ⟨c', tail', hhead, -, rfl⟩ := List.forall₂_cons_left_iff.mp h.pending
  cases hhead with
  | @intent _ inputs =>
    refine ⟨inputs, tail', rfl, ?_⟩
    rw [Transaction.firstIntent?, h.commands, Transaction.firstIntentFrom_append h.noIntent,
      Nat.zero_add]
    rfl

/-- Once the commands in front are passed, the intent that the loop finds is the next command. -/
theorem next_of_firstIntent {index : Nat} (h : Underway registry tx cur done rest blocks tail)
    (hrest : rest = [] ∨ ∃ i rest', rest = .intent i :: rest')
    (hfirst : cur.firstIntent? = some (index, i')) :
    ∃ i rest' inputs tail', rest = .intent i :: rest' ∧ tail = .intent { i with inputs } :: tail' ∧
      index = (Block.allCommands blocks).length ∧ i' = { i with inputs } ∧
      .intent i ∈ tx.commands := by
  rcases hrest with rfl | ⟨i, rest, rfl⟩
  · rw [h.firstIntent_eq_none] at hfirst
    cases hfirst
  obtain ⟨inputs, tail, rfl, hfirst'⟩ := h.firstIntent_eq_some
  rw [hfirst', Option.some.injEq, Prod.mk.injEq] at hfirst
  have hmem : .intent i ∈ tx.commands := by
    rw [h.split]
    exact List.mem_append_right _ List.mem_cons_self
  exact ⟨i, rest, inputs, tail, rfl, rfl, hfirst.1.symm, hfirst.2.symm, hmem⟩

/-- **One turn of the loop.** A handler deals with the first intent. -/
theorem step {index : Nat} {handler : IntentHandler σ} {w w' : World σ}
    (h : Underway registry tx cur done rest blocks tail) (hvalid : tx.validate = .ok ())
    (hhandles : ∀ i, .intent i ∈ tx.commands → registry.Handles i.name)
    (hfirst : cur.firstIntent? = some (index, i'))
    (hhandler : registry.get? i'.name = some handler)
    (hnext : (handler cur index i' o).exec w = (.ok next, w')) :
    ∃ done rest blocks tail, Underway registry tx next done rest blocks tail := by
  obtain ⟨done, rest, blocks, tail, h, hrest⟩ := h.advance hvalid
  obtain ⟨i, rest, inputs, tail, rfl, rfl, rfl, rfl, hmem⟩ := h.next_of_firstIntent hrest hfirst
  have hinputs : cur.inputs.length ≤ UInt16.size := (Transaction.validate_eq_ok.mp h.valid).1
  rcases hhandles i hmem with hcoin | ⟨call, hcallback⟩
  · obtain rfl := Option.some.inj (hcoin.symm.trans hhandler)
    obtain ⟨r, mid, commands, t, hr, hadds, hmade, hreplace⟩ := coinHandler_eq_ok hinputs hnext
    obtain ⟨tail', h'⟩ :=
      h.replace hvalid (hadds.moreInputs hinputs) (.coin hcoin hr hmade) hreplace
    exact ⟨_, _, _, _, h'⟩
  · obtain rfl := Option.some.inj (hcallback.symm.trans hhandler)
    have hreplace := callbackHandler_eq_ok hnext
    obtain ⟨tail', h'⟩ := h.replace hvalid (.refl hinputs) (.removed hcallback) hreplace
    exact ⟨_, _, _, _, h'⟩

end Underway

/-- **Handling intents keeps the other commands.** When all intents of a valid transaction were handled,
its commands became blocks that make up the new ones, and inputs, sender, gas and expiration are kept. -/
theorem settled_of_resolveIntents {σ : Type} {registry : IntentRegistry σ} {o : BuildOptions σ}
    {tx tx' : Transaction} {w w' : World σ} (hvalid : tx.validate = .ok ())
    (hhandles : ∀ i, .intent i ∈ tx.commands → registry.Handles i.name)
    (h : (resolveIntents registry o tx).exec w = (.ok tx', w')) :
    ∃ blocks, Block.Laid (Settled registry (Input.keys tx'.inputs) (Block.targets blocks)) 0
        tx.commands blocks ∧
      tx'.commands = Block.allCommands blocks ∧ tx.Keeps tx' := by
  obtain ⟨⟨done, rest, blocks, tail, hunderway⟩, hnone⟩ := resolveIntents_induct
    (P := fun cur _ => ∃ done rest blocks tail, Underway registry tx cur done rest blocks tail)
    (fun cur index i handler next w w' hcur hfirst hhandler hnext => by
      obtain ⟨done, rest, blocks, tail, hunderway⟩ := hcur
      exact hunderway.step hvalid hhandles hfirst hhandler hnext)
    ⟨_, _, _, _, .start registry hvalid⟩ h
  obtain ⟨done, rest, blocks, tail, hunderway, hrest⟩ := hunderway.advance hvalid
  rcases hrest with rfl | ⟨i, rest, rfl⟩
  · obtain rfl := List.forall₂_nil_left_iff.mp hunderway.pending
    refine ⟨blocks, ?_, by rw [hunderway.commands, List.append_nil], hunderway.keeps⟩
    rw [hunderway.split, List.append_nil]
    exact hunderway.settled
  · obtain ⟨inputs, tail', -, hfirst⟩ := hunderway.firstIntent_eq_some
    rw [hfirst] at hnone
    cases hnone

/-- The handlers of a registry are the handler for coins and callbacks. -/
def IntentRegistry.BuiltIn {σ : Type} (registry : IntentRegistry σ) : Prop :=
  ∀ name handler, registry.get? name = some handler →
    handler = coinHandler ∨ ∃ call, handler = callbackHandler call

theorem gas_of_resolveIntents {σ : Type} {registry : IntentRegistry σ} {o : BuildOptions σ}
    {tx tx' : Transaction} {w w' : World σ} (hregistry : registry.BuiltIn)
    (hinputs : tx.inputs.length ≤ UInt16.size)
    (h : (resolveIntents registry o tx).exec w = (.ok tx', w')) : tx'.gas = tx.gas := by
  refine (resolveIntents_induct
    (P := fun cur _ => cur.inputs.length ≤ UInt16.size ∧ cur.gas = tx.gas)
    (fun cur index i handler next w w' hcur _ hhandler hnext => ?_) ⟨hinputs, rfl⟩ h).1.2
  obtain ⟨hlen, hgas⟩ := hcur
  have hreplace : ∃ mid commands res, cur.MoreInputs mid ∧
      mid.replaceCommand index commands res = .ok next := by
    rcases hregistry _ _ hhandler with rfl | ⟨call, rfl⟩
    · obtain ⟨_, mid, commands, t, -, hadds, -, hreplace⟩ := coinHandler_eq_ok hlen hnext
      exact ⟨mid, commands, some t, hadds.moreInputs hlen, hreplace⟩
    · exact ⟨cur, [], none, .refl hlen, callbackHandler_eq_ok hnext⟩
  obtain ⟨mid, commands, res, hmore, hreplace⟩ := hreplace
  obtain ⟨-, -, tail, -, rfl, hvalid⟩ := Transaction.replaceCommand_eq_ok.mp hreplace
  refine ⟨(Transaction.validate_eq_ok.mp hvalid).1, ?_⟩
  show mid.gas = tx.gas
  rw [hmore.2.2, ← hgas]

end ObjectLedger
