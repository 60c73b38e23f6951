import ObjectLedger.Proofs.Resolve.Preserving

/-!
# Those who are asked

A build knows those whom it asks by their answers, which may change their state. A condition on that state
which no answer breaks holds whenever a build asks; and what the answers are need only be known while it
holds. The plainest case are answers that are taken item by item from fixed data.
-/

namespace ObjectLedger

def Table.tabulate {κ ν : Type} (f : κ → Option ν) (keys : List κ) : Table κ ν :=
  keys.filterMap fun key => (f key).map (key, ·)

theorem Table.get?_tabulate {κ ν : Type} [DecidableEq κ] (f : κ → Option ν) (keys : List κ) (key : κ) :
    get? (tabulate f keys) key = if key ∈ keys then f key else none := by
  induction keys with
  | nil => rfl
  | cons first rest ih =>
    unfold tabulate at ih ⊢
    by_cases heq : key = first
    · subst heq
      cases hkey : f key with
      | none => simpa [hkey] using ih
      | some value => simp [hkey, get?_cons]
    · have hmem : key ∈ first :: rest ↔ key ∈ rest := by simp [heq]
      simp only [hmem, ← ih]
      cases hfirst : f first with
      | none => simp [hfirst]
      | some value => simp [hfirst, get?_cons, heq]

variable {σ α : Type} {holds : σ → Prop}

/-! ### Conditions that are kept -/

namespace Build

/-- Whatever comes of the computation, the condition is kept. -/
def Keeps (holds : σ → Prop) (x : Build σ α) : Prop := ∀ w, holds w.peer → holds (x.exec w).2.peer

theorem Keeps.of_eq {x : Build σ α} {r : Except BuildError α} {w w' : World σ} (hx : Keeps holds x)
    (h : x.exec w = (r, w')) (hw : holds w.peer) : holds w'.peer := by
  have hkept := hx w hw
  rwa [h] at hkept

end Build

/-- No answer that a build can get breaks the condition. -/
def BuildOptions.Keeps (o : BuildOptions σ) (holds : σ → Prop) : Prop :=
  ∀ lookup, o.lookup = some lookup → lookup.Keeps holds

theorem BuildOptions.keeps_of_lookup {o : BuildOptions σ} {lookup : Lookup σ}
    (ho : o.lookup = some lookup) (h : lookup.Keeps holds) : o.Keeps holds := by
  intro found hfound
  obtain rfl := Option.some.inj (ho.symm.trans hfound)
  exact h

theorem BuildOptions.keeps_true (o : BuildOptions σ) : o.Keeps fun _ => True :=
  fun _ _ => ⟨fun _ _ _ => trivial, fun _ _ _ => trivial, fun _ _ => trivial, fun _ _ _ _ => trivial⟩

/-- The handler keeps a condition that those whom it may ask keep. -/
def IntentHandler.Keeps (handler : IntentHandler σ) (holds : σ → Prop) : Prop :=
  ∀ o tx index i, o.Keeps holds → Build.Keeps holds (handler tx index i o)

def IntentRegistry.Keeps (registry : IntentRegistry σ) (holds : σ → Prop) : Prop :=
  ∀ name handler, registry.get? name = some handler → IntentHandler.Keeps handler holds

/-- To keep a condition on the others is to preserve one in which the counts play no part. -/
theorem BuildOptions.keeps_iff_preserves {o : BuildOptions σ} :
    o.Keeps holds ↔ o.Preserves fun peer _ => holds peer :=
  ⟨fun h lookup hlookup _ => h lookup hlookup, fun h lookup hlookup => h lookup hlookup {}⟩

theorem IntentRegistry.Keeps.preserves {registry : IntentRegistry σ} (h : registry.Keeps holds) :
    registry.Preserves fun peer _ => holds peer :=
  fun name handler hhandler o tx index i ho =>
    h name handler hhandler o tx index i (BuildOptions.keeps_iff_preserves.mpr ho)

theorem keeps_coinHandler : IntentHandler.Keeps (coinHandler : IntentHandler σ) holds :=
  fun _ tx index i ho => preserves_coinHandler (BuildOptions.keeps_iff_preserves.mp ho) tx index i

theorem keeps_callbackHandler {call : Json → σ → Except String Unit × σ}
    (hcall : ∀ data peer, holds peer → holds (call data peer).2) :
    IntentHandler.Keeps (callbackHandler call) holds :=
  fun o tx index i _ => preserves_callbackHandler (fun data peer _ => hcall data peer) tx index i o

/-- What holds of a new handler and of all others holds of the handlers after an insertion. -/
theorem IntentRegistry.forall_insert {P : IntentHandler σ → Prop} {registry : IntentRegistry σ}
    {name : String} {handler : IntentHandler σ}
    (h : ∀ other found, registry.get? other = some found → P found) (hhandler : P handler) :
    ∀ other found, (registry.insert name handler).get? other = some found → P found := by
  intro other found hfound
  by_cases heq : other = name
  · subst heq
    rw [IntentRegistry.get?, IntentRegistry.insert, Table.get?_insert_self] at hfound
    cases hfound
    exact hhandler
  · rw [IntentRegistry.get?, IntentRegistry.insert, Table.get?_insert_of_ne _ _ heq] at hfound
    exact h other found hfound

theorem IntentRegistry.forall_standard {P : IntentHandler σ → Prop} (h : P coinHandler) :
    ∀ name handler, IntentRegistry.standard.get? name = some handler → P handler :=
  IntentRegistry.forall_insert (fun _ _ hempty => by cases hempty) h

/-- Code of the caller's own in the stage keeps a condition that no answer breaks. -/
def Stage.Keeps (s : Stage σ) (holds : σ → Prop) : Prop := s.Preserves fun peer _ => holds peer

section Stages

variable {o : BuildOptions σ} {w w' : World σ}

theorem keeps_resolveNames (ho : o.Keeps holds) {batch : Nat} {memory memory' : NameMemory}
    {tx : Transaction} {r : Except BuildError Transaction}
    (h : resolveNames batch o memory tx w = (r, memory', w')) (hw : holds w.peer) : holds w'.peer := by
  have hkept := preserves_resolveNames (BuildOptions.keeps_iff_preserves.mp ho) batch memory tx w hw
  rwa [h] at hkept

theorem keeps_resolveIntents (ho : o.Keeps holds) {registry : IntentRegistry σ}
    (hregistry : registry.Keeps holds) (tx : Transaction) :
    Build.Keeps holds (resolveIntents registry o tx) :=
  preserves_resolveIntents (BuildOptions.keeps_iff_preserves.mp ho) hregistry.preserves tx

theorem keeps_resolveObjects (ho : o.Keeps holds) (batch : Nat) (tx : Transaction) :
    Build.Keeps holds (resolveObjects batch o tx) :=
  preserves_resolveObjects (BuildOptions.keeps_iff_preserves.mp ho) batch tx

theorem Stage.Keeps.of_run {s s' : Stage σ} {tx : Transaction} {r : Except BuildError (Flow × Transaction)}
    (hs : s.Keeps holds) (ho : o.Keeps holds) (h : s.run o tx w = (r, s', w')) (hw : holds w.peer) :
    holds w'.peer := by
  have hkept := Stage.preserves_run (BuildOptions.keeps_iff_preserves.mp ho) hs tx w hw
  rwa [h] at hkept

end Stages

/-! ### Lookups that answer from fixed data -/

/-- What a lookup answers about each object, each name, the price and each list of coins. -/
structure FixedData where
  object : ObjectId → Option ObjectInfo
  package : String → Option Address
  price : Except ClientError UInt64
  coins : Address → String → Except ClientError (List CoinInfo)

/-- Each question is answered item by item from the data, in every state that meets a condition, and the
condition is kept. -/
structure Lookup.AnswersFrom (lookup : Lookup σ) (holds : σ → Prop) (data : FixedData) : Prop where
  objects : ∀ ids peer, holds peer →
    ∃ peer', lookup.objects ids peer = (.ok (ids.map data.object), peer') ∧ holds peer'
  packages : ∀ names peer, holds peer →
    ∃ found peer', lookup.packages names peer = (.ok found, peer') ∧ holds peer' ∧
      ∀ name ∈ names, found.lookup name = data.package name
  gasPrice : ∀ peer, holds peer → ∃ peer', lookup.gasPrice peer = (data.price, peer') ∧ holds peer'
  coins : ∀ owner coinType peer, holds peer →
    ∃ peer', lookup.coins owner coinType peer = (data.coins owner coinType, peer') ∧ holds peer'

theorem Lookup.AnswersFrom.keeps {lookup : Lookup σ} {data : FixedData}
    (h : lookup.AnswersFrom holds data) : lookup.Keeps holds where
  objects ids peer hpeer := by
    obtain ⟨_, heq, hholds⟩ := h.objects ids peer hpeer
    rw [heq]
    exact hholds
  packages names peer hpeer := by
    obtain ⟨_, _, heq, hholds, -⟩ := h.packages names peer hpeer
    rw [heq]
    exact hholds
  gasPrice peer hpeer := by
    obtain ⟨_, heq, hholds⟩ := h.gasPrice peer hpeer
    rw [heq]
    exact hholds
  coins owner coinType peer hpeer := by
    obtain ⟨_, heq, hholds⟩ := h.coins owner coinType peer hpeer
    rw [heq]
    exact hholds

end ObjectLedger
