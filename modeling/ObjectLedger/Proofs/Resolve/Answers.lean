import ObjectLedger.Proofs.Resolve.PackageNames

/-!
# Fixed answers

A lookup that answers each question item by item from fixed data. The stages for names and for objects are
compared with their plain forms, which take every name and every object by itself: what was known before,
and how the questions are put together, leave no trace in the outcome.
-/

namespace ObjectLedger

/-! ### Tables of answers -/

def Table.TrueTo {κ ν : Type} [DecidableEq κ] (f : κ → Option ν) (t : Table κ ν) : Prop :=
  ∀ key value, get? t key = some value → f key = some value

/-- All keys have answers, or the first one without an answer is the fault. -/
def allAnswered {κ ν : Type} (f : κ → Option ν) (fault : κ → BuildError) (keys : List κ) :
    Except BuildError Unit :=
  match keys.find? fun key => (f key).isNone with
  | some key => .error (fault key)
  | none => .ok ()

/-- A table that took in the answers for some keys, up to the first one without an answer. -/
structure Table.Learns {κ ν : Type} [DecidableEq κ] (f : κ → Option ν) (keys : List κ)
    (t t' : Table κ ν) : Prop where
  trueTo : TrueTo f t'
  grows : ∀ key, (get? t key).isSome → (get? t' key).isSome
  learnt : (∀ key ∈ keys, (f key).isSome) → ∀ key ∈ keys, (get? t' key).isSome

section Answers

variable {κ ν : Type} {f : κ → Option ν} {fault : κ → BuildError} {key : κ} {keys more : List κ}

theorem allAnswered_eq_ok : allAnswered f fault keys = .ok () ↔ ∀ key ∈ keys, (f key).isSome := by
  have hfind : keys.find? (fun key => (f key).isNone) = none ↔ ∀ key ∈ keys, (f key).isSome := by
    simp [List.find?_eq_none, Option.isSome_iff_ne_none]
  rw [← hfind, allAnswered]
  cases keys.find? (fun key => (f key).isNone) <;> simp

theorem allAnswered_cons_none (h : f key = none) :
    allAnswered f fault (key :: keys) = .error (fault key) := by
  simp [allAnswered, h]

theorem allAnswered_cons_some {value : ν} (h : f key = some value) :
    allAnswered f fault (key :: keys) = allAnswered f fault keys := by
  simp [allAnswered, h]

theorem allAnswered_append :
    allAnswered f fault (keys ++ more) =
      (allAnswered f fault keys).bind fun _ => allAnswered f fault more := by
  unfold allAnswered
  rw [List.find?_append]
  cases keys.find? (fun key => (f key).isNone) <;> rfl

variable [DecidableEq κ] {t t' t'' : Table κ ν}

theorem Table.TrueTo.get?_eq (h : t.TrueTo f) (hkey : (Table.get? t key).isSome) :
    Table.get? t key = f key := by
  obtain ⟨value, hvalue⟩ := Option.isSome_iff_exists.mp hkey
  rw [hvalue, h key value hvalue]

theorem Table.TrueTo.insert {value : ν} (h : t.TrueTo f) (hkey : f key = some value) :
    TrueTo f (Table.insert t key value) := by
  intro other found hother
  by_cases heq : other = key
  · subst heq
    rw [Table.get?_insert_self] at hother
    rw [hkey, hother]
  · rw [Table.get?_insert_of_ne _ _ heq] at hother
    exact h other found hother

theorem Table.trueTo_tabulate : TrueTo f (tabulate f keys) := by
  intro key value h
  rw [get?_tabulate] at h
  split_ifs at h with hmem
  exact h

theorem allAnswered_missing (h : t.TrueTo f) :
    allAnswered f fault (keys.filter fun key => (Table.get? t key).isNone) =
      allAnswered f fault keys := by
  induction keys with
  | nil => rfl
  | cons key keys ih =>
    cases hkey : Table.get? t key with
    | none =>
      rw [List.filter_cons_of_pos (by rw [hkey]; rfl)]
      cases hf : f key with
      | none => rw [allAnswered_cons_none hf, allAnswered_cons_none hf]
      | some value => rw [allAnswered_cons_some hf, allAnswered_cons_some hf, ih]
    | some value =>
      rw [List.filter_cons_of_neg (by rw [hkey]; exact Bool.false_ne_true),
        allAnswered_cons_some (h key value hkey), ih]

theorem isSome_of_none_missing
    (h : (keys.filter fun key => (Table.get? t key).isNone).isEmpty = true) :
    ∀ key ∈ keys, (Table.get? t key).isSome := by
  intro key hkey
  have hnone := List.filter_eq_nil_iff.mp (List.isEmpty_iff.mp h) key hkey
  simpa [Option.isSome_iff_ne_none] using hnone

namespace Table.Learns

theorem nil (h : t.TrueTo f) : Learns f [] t t := ⟨h, fun _ h => h, fun _ => by simp⟩

theorem stop (h : t.TrueTo f) (hkey : f key = none) : Learns f (key :: keys) t t where
  trueTo := h
  grows := fun _ h => h
  learnt := fun hall => by
    have hsome := hall key List.mem_cons_self
    rw [hkey] at hsome
    cases hsome

theorem cons {value : ν} (h : Learns f keys (Table.insert t key value) t') :
    Learns f (key :: keys) t t' := by
  have hself : (get? (Table.insert t key value) key).isSome := by
    rw [get?_insert_self]
    rfl
  refine ⟨h.trueTo, fun other hother => h.grows other ?_, fun hall => ?_⟩
  · by_cases heq : other = key
    · rw [heq]
      exact hself
    · rwa [get?_insert_of_ne _ _ heq]
  · exact List.forall_mem_cons.mpr
      ⟨h.grows key hself, h.learnt fun other hother => hall other (List.mem_cons_of_mem _ hother)⟩

theorem append (h : Learns f keys t t') (h' : Learns f more t' t'') :
    Learns f (keys ++ more) t t'' where
  trueTo := h'.trueTo
  grows := fun key hkey => h'.grows key (h.grows key hkey)
  learnt := fun hall key hkey => by
    obtain ⟨hkeys, hmore⟩ := List.forall_mem_append.mp hall
    rcases List.mem_append.mp hkey with hmem | hmem
    · exact h'.grows key (h.learnt hkeys key hmem)
    · exact h'.learnt hmore key hmem

theorem append_of_error {e : BuildError} (h : Learns f keys t t')
    (herror : allAnswered f fault keys = .error e) : Learns f (keys ++ more) t t' where
  trueTo := h.trueTo
  grows := h.grows
  learnt := fun hall => by
    rw [allAnswered_eq_ok.mpr (List.forall_mem_append.mp hall).1] at herror
    cases herror

theorem isSome_of_missing (h : Learns f (keys.filter fun key => (get? t key).isNone) t t')
    (hall : ∀ key ∈ keys, (f key).isSome) : ∀ key ∈ keys, (get? t' key).isSome := by
  intro key hkey
  cases hbefore : get? t key with
  | some value =>
    refine h.grows key ?_
    rw [hbefore]
    rfl
  | none =>
    refine h.learnt (fun other hother => hall other (List.mem_filter.mp hother).1) key ?_
    exact List.mem_filter.mpr ⟨hkey, by rw [hbefore]; rfl⟩

end Table.Learns

end Answers

/-! ### Computations with one outcome -/

namespace Build

variable {σ α β : Type} {holds : σ → Prop}

/-- As long as the state of the others meets a condition, the outcome is the given one, and the condition
goes on being met. -/
def Gives (holds : σ → Prop) (x : Build σ α) (r : Except BuildError α) : Prop :=
  ∀ w, holds w.peer → ∃ w', x.exec w = (r, w') ∧ holds w'.peer

/-- As long as the states of the others meet a condition, both computations have the same outcome. -/
def Same (holds : σ → Prop) (x y : Build σ α) : Prop :=
  ∀ w w', holds w.peer → holds w'.peer →
    ∃ r v v', x.exec w = (r, v) ∧ y.exec w' = (r, v') ∧ holds v.peer ∧ holds v'.peer

theorem Gives.same {x y : Build σ α} {r : Except BuildError α} (hx : Gives holds x r)
    (hy : Gives holds y r) : Same holds x y := by
  intro w w' hw hw'
  obtain ⟨v, hv, hholds⟩ := hx w hw
  obtain ⟨v', hv', hholds'⟩ := hy w' hw'
  exact ⟨r, v, v', hv, hv', hholds, hholds'⟩

theorem Same.refl {x : Build σ α} {r : Except BuildError α} (hx : Gives holds x r) : Same holds x x :=
  hx.same hx

theorem gives_ofExcept (r : Except BuildError α) : Gives holds (ofExcept r) r :=
  fun w hw => ⟨w, rfl, hw⟩

theorem gives_pure (a : α) : Gives holds (pure a : Build σ α) (.ok a) := fun w hw => ⟨w, rfl, hw⟩

theorem gives_throw (e : BuildError) : Gives holds (throw e : Build σ α) (.error e) :=
  fun w hw => ⟨w, rfl, hw⟩

theorem gives_count (change : Metrics → Metrics) : Gives holds (count change) (.ok ()) :=
  fun w hw => ⟨{ w with metrics := change w.metrics }, rfl, hw⟩

theorem gives_ask {question : σ → Except ClientError α × σ} {answer : Except ClientError α}
    (h : ∀ peer, holds peer → ∃ peer', question peer = (answer, peer') ∧ holds peer') :
    Gives holds (ask question) (answer.mapError .client) := by
  intro w hw
  obtain ⟨peer, hpeer, hholds⟩ := h w.peer hw
  refine ⟨{ w with peer }, ?_, hholds⟩
  show ((question w.peer).1.mapError BuildError.client, { w with peer := (question w.peer).2 }) = _
  rw [hpeer]

theorem Gives.bind_ok {x : Build σ α} {a : α} {f : α → Build σ β} {r : Except BuildError β}
    (hx : Gives holds x (.ok a)) (hf : Gives holds (f a) r) : Gives holds (x >>= f) r := by
  intro w hw
  obtain ⟨w₁, hw₁, hholds⟩ := hx w hw
  rw [exec_bind, hw₁]
  exact hf w₁ hholds

theorem Gives.bind_error {x : Build σ α} {e : BuildError} {f : α → Build σ β}
    (hx : Gives holds x (.error e)) : Gives holds (x >>= f) (.error e) := by
  intro w hw
  obtain ⟨w₁, hw₁, hholds⟩ := hx w hw
  rw [exec_bind, hw₁]
  exact ⟨w₁, rfl, hholds⟩

theorem Same.bind {x y : Build σ α} {f g : α → Build σ β} (hxy : Same holds x y)
    (hfg : ∀ a, Same holds (f a) (g a)) : Same holds (x >>= f) (y >>= g) := by
  intro w w' hw hw'
  obtain ⟨r, v, v', hv, hv', hholds, hholds'⟩ := hxy w w' hw hw'
  rw [exec_bind, exec_bind, hv, hv']
  cases r with
  | error e => exact ⟨.error e, v, v', rfl, rfl, hholds, hholds'⟩
  | ok a => exact hfg a v v' hholds hholds'

end Build

/-! ### Stages by fixed data -/

/-- Each object in the cache is the one that the data have. -/
def ObjectCache.AgreesWith (c : ObjectCache) (data : FixedData) : Prop :=
  ∀ objectId info, c.object? objectId = some info → data.object objectId = some info

/-- A handler whose outcome depends neither on the cache nor on the state of the others. -/
def IntentHandler.Steady {σ : Type} (handler : IntentHandler σ) (holds : σ → Prop)
    (o : BuildOptions σ) : Prop :=
  ∀ tx index i cache cache', Build.Same holds (handler tx index i { o with cache })
    (handler tx index i { o with cache := cache' })

/-- Handlers whose outcomes depend neither on the cache nor on the state of the others. -/
def IntentRegistry.Steady {σ : Type} (registry : IntentRegistry σ) (holds : σ → Prop)
    (o : BuildOptions σ) : Prop :=
  ∀ name handler, registry.get? name = some handler → IntentHandler.Steady handler holds o

namespace FixedData

/-- Names resolved one by one: the first one without an answer is the fault. -/
def named (data : FixedData) (tx : Transaction) : Except BuildError Transaction :=
  (allAnswered data.package .unresolvedName tx.names).bind fun _ =>
    if tx.names.isEmpty then .ok tx
    else
      (tx.commands.mapM (Command.resolveNames (Table.tabulate data.package tx.names))).map
        fun commands => { tx with commands }

/-- Objects completed one by one: the first one that does not exist is the fault. -/
def completed (data : FixedData) (tx : Transaction) : Except BuildError Transaction :=
  (allAnswered data.object .objectNotFound (pendingIds tx.inputs)).bind fun _ =>
    (tx.inputs.mapM (Input.complete (Table.tabulate data.object (pendingIds tx.inputs)))).map
      fun inputs => { tx with inputs }

end FixedData

section Stages

variable {σ : Type} {holds : σ → Prop} {lookup : Lookup σ} {data : FixedData} {o : BuildOptions σ}
  {w : World σ} {tx : Transaction}

theorem requireLookup_eq (ho : o.lookup = some lookup) (purpose : String) :
    o.requireLookup purpose = pure lookup := by
  rw [BuildOptions.requireLookup, ho]

/-! ### Names -/

theorem resolveType_congr {memory memory' : NameMemory} {text : String}
    (h : ∀ name ∈ namesIn text, Table.get? memory name = Table.get? memory' name) :
    resolveType memory text = resolveType memory' text := by
  have hreplace : replaceNames memory text = replaceNames memory' text :=
    replaceNamesBy_congr (f := Table.get? memory) (g := Table.get? memory') h
  rw [resolveType, resolveType, hreplace]

theorem PackageRef.resolve_congr {memory memory' : NameMemory} {text : String}
    (h : ∀ name ∈ namesIn text, Table.get? memory name = Table.get? memory' name) :
    (PackageRef.named text).resolve memory = (PackageRef.named text).resolve memory' := by
  have hfirst : (namesIn text).head?.bind (Table.get? memory) =
      (namesIn text).head?.bind (Table.get? memory') := by
    cases hhead : (namesIn text).head? with
    | none => rfl
    | some name => exact h name (List.mem_of_head? hhead)
  rw [resolve, resolve, hfirst]

theorem Command.resolveNames_congr {memory memory' : NameMemory} {c : Command}
    (h : ∀ text ∈ c.nameTexts, ∀ name ∈ namesIn text,
      Table.get? memory name = Table.get? memory' name) :
    c.resolveNames memory = c.resolveNames memory' := by
  have htypes : ∀ texts : List String, (∀ text ∈ texts, ∀ name ∈ namesIn text,
      Table.get? memory name = Table.get? memory' name) →
      texts.mapM (resolveType memory) = texts.mapM (resolveType memory') :=
    fun texts htexts => Except.mapM_congr fun text htext => resolveType_congr (htexts text htext)
  cases c with
  | moveCall call =>
    obtain ⟨package, module, function, texts, arguments⟩ := call
    cases package with
    | address a =>
      simp only [resolveNames, PackageRef.resolve, htypes texts h]
    | named name =>
      obtain ⟨hname, htexts⟩ := List.forall_mem_cons.mp h
      simp only [resolveNames, PackageRef.resolve_congr hname, htypes texts htexts]
  | makeMoveVec elementType elements =>
    cases elementType with
    | none => rfl
    | some text => simp only [resolveNames, resolveType_congr (h text List.mem_cons_self)]
  | intent i =>
    cases htype : i.type? with
    | none => simp only [resolveNames, htype]
    | some text =>
      have htext : text ∈ (Command.intent i).nameTexts := by
        rw [nameTexts, htype]
        exact List.mem_singleton_self text
      simp only [resolveNames, htype, resolveType_congr (h text htext)]
  | _ => rfl

theorem finish_eq_named {memory : NameMemory} (hnames : tx.names ≠ [])
    (hmemory : memory.TrueTo data.package)
    (hknown : ∀ name ∈ tx.names, (Table.get? memory name).isSome) :
    (tx.commands.mapM (Command.resolveNames memory)).map (fun commands => { tx with commands }) =
      data.named tx := by
  have hget : ∀ name ∈ tx.names, Table.get? memory name = data.package name :=
    fun name hname => hmemory.get?_eq (hknown name hname)
  have hall : allAnswered data.package .unresolvedName tx.names = .ok () :=
    allAnswered_eq_ok.mpr fun name hname => hget name hname ▸ hknown name hname
  have hcommands : tx.commands.mapM (Command.resolveNames memory) =
      tx.commands.mapM (Command.resolveNames (Table.tabulate data.package tx.names)) := by
    refine Except.mapM_congr fun c hc => Command.resolveNames_congr fun text htext name hname => ?_
    have hmem := Transaction.mem_names.mpr ⟨c, hc, text, htext, hname⟩
    rw [hget name hmem, Table.get?_tabulate, if_pos hmem]
  rw [FixedData.named, hall, hcommands]
  simp [Except.bind, hnames]

theorem learn_of_answers {found : List (String × Address)} {names : List String} {memory : NameMemory}
    (hfound : ∀ name ∈ names, found.lookup name = data.package name)
    (hmemory : memory.TrueTo data.package) :
    ∃ memory', learn found names memory =
        (allAnswered data.package .unresolvedName names, memory') ∧
      Table.Learns data.package names memory memory' := by
  induction names generalizing memory with
  | nil => exact ⟨memory, rfl, .nil hmemory⟩
  | cons name names ih =>
    obtain ⟨hname, hnames⟩ := List.forall_mem_cons.mp hfound
    rw [learn, hname]
    cases hpackage : data.package name with
    | none =>
      rw [allAnswered_cons_none hpackage]
      exact ⟨memory, rfl, .stop hmemory hpackage⟩
    | some a =>
      obtain ⟨memory', hlearn, hlearns⟩ := ih hnames (hmemory.insert hpackage)
      rw [allAnswered_cons_some hpackage]
      exact ⟨memory', hlearn, hlearns.cons⟩

theorem learnBatches_of_answers (hlookup : lookup.AnswersFrom holds data) (parts : List (List String))
    {memory : NameMemory} (hmemory : memory.TrueTo data.package) (hw : holds w.peer) :
    ∃ memory' w', learnBatches lookup parts memory w =
        (allAnswered data.package .unresolvedName parts.flatten, memory', w') ∧
      Table.Learns data.package parts.flatten memory memory' ∧ holds w'.peer := by
  induction parts generalizing memory w with
  | nil => exact ⟨memory, w, rfl, .nil hmemory, hw⟩
  | cons part parts ih =>
    obtain ⟨found, peer, hask, hpeer, hfound⟩ := hlookup.packages part w.peer hw
    have hexec : (Build.ask (lookup.packages part)).exec w = (.ok found, { w with peer }) :=
      Build.exec_ask_eq_ok.mpr ⟨peer, hask, rfl⟩
    obtain ⟨memory₁, hlearn, hlearns⟩ := learn_of_answers hfound hmemory
    unfold learnBatches
    rw [List.flatten_cons, allAnswered_append]
    simp only [hexec, hlearn]
    cases hpart : allAnswered data.package .unresolvedName part with
    | error e => exact ⟨memory₁, { w with peer }, rfl, hlearns.append_of_error hpart, hpeer⟩
    | ok u =>
      obtain ⟨memory₂, w', hrest, hlearns', hw'⟩ := ih (w := { w with
        peer, metrics := { w.metrics with namesResolved := w.metrics.namesResolved + part.length } })
        hlearns.trueTo hpeer
      exact ⟨memory₂, w', hrest, hlearns.append hlearns', hw'⟩

/-- The stage for names gives what the names give one by one, whatever part of the answers was known
before, and what it knows afterwards are answers again. -/
theorem resolveNames_of_answers (hlookup : lookup.AnswersFrom holds data)
    (ho : o.lookup = some lookup) (batch : Nat) (tx : Transaction) {memory : NameMemory}
    (hmemory : memory.TrueTo data.package) (hw : holds w.peer) :
    ∃ memory' w', resolveNames batch o memory tx w = (data.named tx, memory', w') ∧
      memory'.TrueTo data.package ∧ holds w'.peer := by
  unfold resolveNames
  simp only [ho]
  split_ifs with hnames hmissing
  · refine ⟨memory, w, ?_, hmemory, hw⟩
    rw [FixedData.named, List.isEmpty_iff.mp hnames]
    rfl
  · refine ⟨memory, w, ?_, hmemory, hw⟩
    rw [finish_eq_named (fun h => hnames (List.isEmpty_iff.mpr h)) hmemory
      (isSome_of_none_missing hmissing)]
  · obtain ⟨memory', w', hlearn, hlearns, hw'⟩ := learnBatches_of_answers hlookup
      (batches batch (tx.names.filter fun name => (Table.get? memory name).isNone)) hmemory hw
    rw [flatten_batches, allAnswered_missing hmemory] at hlearn
    rw [flatten_batches] at hlearns
    refine ⟨memory', w', ?_, hlearns.trueTo, hw'⟩
    simp only [hlearn]
    cases hall : allAnswered data.package .unresolvedName tx.names with
    | error e =>
      rw [FixedData.named, hall]
      rfl
    | ok u =>
      have hknown := hlearns.isSome_of_missing (allAnswered_eq_ok.mp hall)
      rw [← finish_eq_named (fun h => hnames (List.isEmpty_iff.mpr h)) hlearns.trueTo hknown]

/-! ### Objects -/

theorem mem_pendingIds {inputs : List Input} {u : UnresolvedObject} (hu : .unresolved u ∈ inputs)
    (hdeclared : u.declared? = none) : u.objectId ∈ pendingIds inputs := by
  refine List.mem_filterMap.mpr ⟨.unresolved u, hu, ?_⟩
  simp [hdeclared]

theorem Input.complete_congr {known known' : KnownObjects} {inputs : List Input} {i : Input}
    (hi : i ∈ inputs)
    (h : ∀ objectId ∈ pendingIds inputs, Table.get? known objectId = Table.get? known' objectId) :
    i.complete known = i.complete known' := by
  cases i with
  | unresolved u =>
    cases hdeclared : u.declared? with
    | some arg => simp only [complete, hdeclared]
    | none => simp only [complete, hdeclared, h u.objectId (mem_pendingIds hi hdeclared)]
  | _ => rfl

theorem complete_eq_completed {known : KnownObjects} (hknown : known.TrueTo data.object)
    (hall : ∀ objectId ∈ pendingIds tx.inputs, (Table.get? known objectId).isSome) :
    (tx.inputs.mapM (Input.complete known)).map (fun inputs => { tx with inputs }) =
      data.completed tx := by
  have hget : ∀ objectId ∈ pendingIds tx.inputs, Table.get? known objectId = data.object objectId :=
    fun objectId hmem => hknown.get?_eq (hall objectId hmem)
  have hanswered : allAnswered data.object .objectNotFound (pendingIds tx.inputs) = .ok () :=
    allAnswered_eq_ok.mpr fun objectId hmem => hget objectId hmem ▸ hall objectId hmem
  have hinputs : tx.inputs.mapM (Input.complete known) =
      tx.inputs.mapM (Input.complete (Table.tabulate data.object (pendingIds tx.inputs))) := by
    refine Except.mapM_congr fun i hi => Input.complete_congr hi fun objectId hmem => ?_
    rw [hget objectId hmem, Table.get?_tabulate, if_pos hmem]
  rw [FixedData.completed, hanswered, hinputs]
  rfl

theorem noteObjects_of_answers (ids : List ObjectId) {known : KnownObjects}
    (hknown : known.TrueTo data.object) :
    ∃ known', noteObjects (ids.zip (ids.map data.object)) known =
        (allAnswered data.object .objectNotFound ids).map (fun _ => known') ∧
      Table.Learns data.object ids known known' := by
  induction ids generalizing known with
  | nil => exact ⟨known, rfl, .nil hknown⟩
  | cons objectId ids ih =>
    rw [List.map_cons, List.zip_cons_cons]
    cases hobject : data.object objectId with
    | none =>
      rw [allAnswered_cons_none hobject]
      exact ⟨known, rfl, .stop hknown hobject⟩
    | some info =>
      obtain ⟨known', hnote, hlearns⟩ := ih (hknown.insert hobject)
      rw [allAnswered_cons_some hobject]
      exact ⟨known', hnote, hlearns.cons⟩

theorem fetchObjects_of_answers (hlookup : lookup.AnswersFrom holds data)
    (parts : List (List ObjectId)) {known : KnownObjects} (hknown : known.TrueTo data.object) :
    ∃ known', Build.Gives holds (fetchObjects lookup parts known)
        ((allAnswered data.object .objectNotFound parts.flatten).map fun _ => known') ∧
      Table.Learns data.object parts.flatten known known' := by
  induction parts generalizing known with
  | nil => exact ⟨known, Build.gives_pure known, .nil hknown⟩
  | cons part parts ih =>
    have hask : Build.Gives holds (Build.ask (lookup.objects part)) (.ok (part.map data.object)) :=
      Build.gives_ask (hlookup.objects part)
    obtain ⟨known₁, hnote, hlearns⟩ := noteObjects_of_answers part hknown
    have hnoted : Build.Gives holds
        (Build.ofExcept (noteObjects (part.zip (part.map data.object)) known))
        ((allAnswered data.object .objectNotFound part).map fun _ => known₁) :=
      hnote ▸ Build.gives_ofExcept _
    rw [List.flatten_cons, allAnswered_append]
    cases hpart : allAnswered data.object .objectNotFound part with
    | error e =>
      rw [hpart] at hnoted
      exact ⟨known₁, hask.bind_ok (Build.Gives.bind_error hnoted), hlearns.append_of_error hpart⟩
    | ok u =>
      rw [hpart] at hnoted
      obtain ⟨known₂, hrest, hlearns'⟩ := ih hlearns.trueTo
      exact ⟨known₂, hask.bind_ok (Build.Gives.bind_ok hnoted hrest), hlearns.append hlearns'⟩

theorem trueTo_cachedObjects {o : BuildOptions σ} (ho : ∀ cache ∈ o.cache, cache.AgreesWith data)
    (ids : List ObjectId) : (cachedObjects o ids).TrueTo data.object := by
  intro objectId info hinfo
  unfold cachedObjects at hinfo
  cases hcache : o.cache with
  | none =>
    rw [hcache] at hinfo
    cases hinfo
  | some cache =>
    rw [hcache] at hinfo
    exact ho cache hcache objectId info (Table.trueTo_tabulate objectId info hinfo)

/-- The stage for objects gives what the objects give one by one, whatever part of them is cached. -/
theorem resolveObjects_of_answers (hlookup : lookup.AnswersFrom holds data)
    (ho : o.lookup = some lookup) (hcache : ∀ cache ∈ o.cache, cache.AgreesWith data) (batch : Nat)
    (tx : Transaction) :
    Build.Gives holds (resolveObjects batch o tx) (data.completed tx) := by
  have hcached := trueTo_cachedObjects hcache (pendingIds tx.inputs)
  have hfinish : ∀ {known : KnownObjects}, known.TrueTo data.object →
      (∀ objectId ∈ pendingIds tx.inputs, (Table.get? known objectId).isSome) →
      Build.Gives holds (do
        let inputs ← Build.ofExcept (tx.inputs.mapM (Input.complete known))
        return { tx with inputs } : Build σ Transaction) (data.completed tx) := by
    intro known hknown hall
    rw [← complete_eq_completed hknown hall]
    have hinputs : Build.Gives holds (Build.ofExcept (tx.inputs.mapM (Input.complete known)))
        (tx.inputs.mapM (Input.complete known)) := Build.gives_ofExcept _
    cases hmap : tx.inputs.mapM (Input.complete known) with
    | error e =>
      rw [hmap] at hinputs
      exact hinputs.bind_error
    | ok inputs =>
      rw [hmap] at hinputs
      exact hinputs.bind_ok (Build.gives_pure _)
  unfold resolveObjects
  simp only
  split_ifs with hmissing
  · exact hfinish hcached (isSome_of_none_missing hmissing)
  · obtain ⟨known, hfetch, hlearns⟩ := fetchObjects_of_answers hlookup
      (batches batch ((pendingIds tx.inputs).filter fun objectId =>
        (Table.get? (cachedObjects o (pendingIds tx.inputs)) objectId).isNone)) hcached
    rw [flatten_batches, allAnswered_missing hcached] at hfetch
    rw [flatten_batches] at hlearns
    rw [requireLookup_eq ho, pure_bind]
    cases hall : allAnswered data.object .objectNotFound (pendingIds tx.inputs) with
    | error e =>
      rw [hall] at hfetch
      rw [FixedData.completed, hall]
      exact Build.Gives.bind_error hfetch
    | ok u =>
      rw [hall] at hfetch
      have hknown := hlearns.isSome_of_missing (allAnswered_eq_ok.mp hall)
      exact Build.Gives.bind_ok hfetch ((Build.gives_count _).bind_ok (hfinish hlearns.trueTo hknown))

end Stages

end ObjectLedger
