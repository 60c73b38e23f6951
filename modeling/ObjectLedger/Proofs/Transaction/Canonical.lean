import ObjectLedger.Proofs.Transaction.Encoding
import ObjectLedger.Proofs.TypeTag.Text
import ObjectLedger.Proofs.TypeTag.Wire

/-!
# One encoding for each transaction

Bytes that are accepted as a transaction are what that transaction is encoded to. Types pass through
text in between, and text does not tell every type apart: a struct may have a name on the wire that no
text can spell. So the type tags are followed beside the transaction, by readers that go over the same
bytes, and the statement is about bytes whose struct tags are named by identifiers.
-/

namespace ObjectLedger

namespace Wire

theorem parsedType_text {t : TypeTag} (h : t.HasIdentifiers) : parsedType t.text = .ok t :=
  parsedType_eq_ok.mpr ⟨TypeTag.contains_at_text h, TypeTag.parse_text h⟩

namespace Reader

variable {α β : Type}

/-! ### Arguments and inputs -/

theorem spells_argument : Reader.argument.Spells fun a bs => bs = Wire.argument a := by
  refine spells_variant.bind fun tag => ?_
  split
  · exact .pure (List.append_nil _)
  · exact spells_u16.map fun _ => rfl
  · exact spells_u16.map fun _ => rfl
  · exact spells_u16.bind fun _ => spells_u16.map fun _ => (List.append_assoc _ _ _).symm
  · exact .fail _

theorem spells_arguments :
    (seq Reader.argument).Spells fun as bs => bs = Wire.seq Wire.argument as :=
  spells_seq_write spells_argument

theorem spells_modules : (seq Reader.bytes).Spells fun ms bs => bs = Wire.seq Wire.bytes ms :=
  spells_seq_write spells_bytes

theorem spells_addresses : (seq Reader.address).Spells fun as bs => bs = Wire.seq Wire.address as :=
  spells_seq_write spells_address

theorem spells_objectArg : Reader.objectArg.Spells fun arg bs => bs = Wire.objectArg arg := by
  refine spells_variant.bind fun tag => ?_
  split
  · exact spells_objectRef.map fun _ => rfl
  · refine spells_address.bind fun objectId => spells_u64.bind fun version =>
      spells_bool.map fun isMutable => ?_
    simp only [Wire.objectArg, List.append_assoc]
  · exact spells_objectRef.map fun _ => rfl
  · exact .fail _

theorem spells_input :
    Reader.input.Spells fun i bs => ∀ index, Wire.input index i = .ok bs := by
  refine spells_variant.bind fun tag => ?_
  split
  · exact spells_bytes.map fun _ _ => rfl
  · exact spells_objectArg.map fun _ _ => rfl
  · exact .fail _

theorem spells_expiration :
    Reader.expiration.Spells fun e bs => bs = Wire.expirationTag e := by
  refine spells_variant.bind fun tag => ?_
  split
  · exact .pure (List.append_nil _)
  · exact spells_u64.map fun _ => rfl
  · exact .fail _

theorem spells_typeTag : Reader.typeTag.Spells fun t bs => bs = Wire.typeTag t :=
  spells_typeTagWithin _

/-! ### Type tags beside what is read -/

/-- What is read, with the type tags that a second reader finds at the same place. -/
def withTags (r : Reader α) (tags : Reader (List TypeTag)) : Reader (α × List TypeTag) := fun c =>
  ((r c).1.map fun a => (a, (tags c).1.toOption.getD []), (r c).2)

def commandTags : Reader (List TypeTag) := do
  match ← variant with
  | 0 =>
    let _ ← address
    let _ ← string
    let _ ← string
    seq typeTag
  | 5 =>
    let elementType ← option typeTag
    return elementType.toList
  | _ => return []

/-- The type tags of the commands that stand behind some inputs. -/
def kindTags : Reader (List TypeTag) := do
  let _ ← variant
  let _ ← seq input
  let commands ← seq (command.withTags commandTags)
  return commands.flatMap Prod.snd

def transactionTags : Reader (List TypeTag) := do
  let _ ← variant
  kindTags

/-- Where a value is read, its type tags are found too, and with them the bytes are some that `P`
allows for the value. -/
def Tagged (r : Reader α) (tags : Reader (List TypeTag))
    (P : α → List TypeTag → Bytes → Prop) : Prop :=
  ∀ ⦃c a c'⦄, r c = (.ok a, c') →
    ∃ ts d bs, tags c = (.ok ts, d) ∧ P a ts bs ∧ c.rest = bs ++ c'.rest

section

variable {r : Reader α} {tags : Reader (List TypeTag)} {P : α → List TypeTag → Bytes → Prop}

theorem Tagged.mono {Q : α → List TypeTag → Bytes → Prop} (hr : r.Tagged tags P)
    (h : ∀ a ts bs, P a ts bs → Q a ts bs) : r.Tagged tags Q := by
  intro c a c' ha
  obtain ⟨ts, d, bs, htags, hP, hc⟩ := hr ha
  exact ⟨ts, d, bs, htags, h a ts bs hP, hc⟩

theorem Spells.tagged {ts : List TypeTag} (hr : r.Spells fun a bs => P a ts bs) :
    r.Tagged (Pure.pure ts) P := by
  intro c a c' h
  obtain ⟨bs, hP, hc⟩ := hr h
  exact ⟨ts, c, bs, rfl, hP, hc⟩

theorem Spells.tagged_self {r : Reader (List TypeTag)} {write : List TypeTag → Bytes}
    (hr : r.Spells fun ts bs => bs = write ts) :
    r.Tagged r fun ts ts' bs => ts = ts' ∧ bs = write ts := by
  intro c ts c' h
  obtain ⟨_, rfl, hc⟩ := hr h
  exact ⟨ts, c', _, h, ⟨rfl, rfl⟩, hc⟩

theorem Tagged.bind {r₀ : Reader β} {f : β → Reader α} {g : β → Reader (List TypeTag)}
    {Q : β → Bytes → Prop} (hr : r₀.Spells Q)
    (hf : ∀ b front, Q b front → (f b).Tagged (g b) fun a ts bs => P a ts (front ++ bs)) :
    (r₀ >>= f).Tagged (r₀ >>= g) P := by
  intro c a c' h
  obtain ⟨b, c₁, hb, h⟩ := bind_eq_ok.mp h
  obtain ⟨front, hQ, hc⟩ := hr hb
  obtain ⟨ts, d, bs, htags, hP, hc₁⟩ := hf b front hQ h
  exact ⟨ts, d, front ++ bs, (bind_of_eq_ok hb).trans htags, hP,
    by rw [hc, hc₁, List.append_assoc]⟩

theorem Tagged.behind {r₀ : Reader β} {f : β → Reader α} {g : β → Reader (List TypeTag)}
    {write : β → Bytes} (hr : r₀.Spells fun b bs => bs = write b)
    (hf : ∀ b, (f b).Tagged (g b) fun a ts bs => P a ts (write b ++ bs)) :
    (r₀ >>= f).Tagged (r₀ >>= g) P :=
  .bind hr fun b _ hb => hb ▸ hf b

theorem Tagged.andThen {γ : Type} {f : α → Reader γ} {Q : γ → List TypeTag → Bytes → Prop}
    (hr : r.Tagged tags P)
    (hf : ∀ a ts front, P a ts front → (f a).Spells fun b bs => Q b ts (front ++ bs)) :
    (r >>= f).Tagged tags Q := by
  intro c b c' h
  obtain ⟨a, c₁, ha, h⟩ := bind_eq_ok.mp h
  obtain ⟨ts, d, front, htags, hP, hc⟩ := hr ha
  obtain ⟨bs, hQ, hc₁⟩ := hf a ts front hP h
  exact ⟨ts, d, front ++ bs, htags, hQ, by rw [hc, hc₁, List.append_assoc]⟩

theorem withTags_of_eq_ok {c c' d : Cursor} {a : α} {ts : List TypeTag} (hr : r c = (.ok a, c'))
    (ht : tags c = (.ok ts, d)) : r.withTags tags c = (.ok (a, ts), c') := by
  rw [withTags, hr, ht]
  rfl

theorem times_withTags (hr : r.Tagged tags P) (count : Nat) :
    ∀ (acc : List (α × List TypeTag)) {xs : List α} {c c' : Cursor},
      times r count (acc.map Prod.fst) c = (.ok xs, c') →
      ∃ ys, times (r.withTags tags) count acc c = (.ok ys, c') ∧ ys.map Prod.fst = xs := by
  induction count with
  | zero =>
    intro acc xs c c' h
    cases h
    exact ⟨acc.reverse, rfl, List.map_reverse⟩
  | succ count ih =>
    intro acc xs c c' h
    rw [times] at h
    split at h
    · rename_i a c₁ ha
      obtain ⟨ts, d, _, htags, -⟩ := hr ha
      obtain ⟨ys, hys, hxs⟩ := ih ((a, ts) :: acc) h
      refine ⟨ys, ?_, hxs⟩
      rw [times, withTags_of_eq_ok ha htags]
      exact hys
    · cases h

theorem seq_withTags (hr : r.Tagged tags P) {xs : List α} {c c' : Cursor}
    (h : seq r c = (.ok xs, c')) :
    ∃ ys, seq (r.withTags tags) c = (.ok ys, c') ∧ ys.map Prod.fst = xs := by
  obtain ⟨n, c₁, hn, h⟩ := bind_eq_ok.mp h
  obtain ⟨ys, hys, hxs⟩ := times_withTags hr n [] h
  exact ⟨ys, (bind_of_eq_ok hn).trans hys, hxs⟩

theorem Tagged.withTags (hr : r.Tagged tags P) :
    (r.withTags tags).Spells fun x bs => P x.1 x.2 bs := by
  rintro c x c' h
  cases ha : r c with
  | mk outcome c₁ =>
    cases outcome with
    | error e =>
      rw [Reader.withTags, ha] at h
      cases h
    | ok a =>
      obtain ⟨ts, d, bs, htags, hP, hc⟩ := hr ha
      rw [withTags_of_eq_ok ha htags] at h
      cases h
      exact ⟨bs, hP, hc⟩

end

/-! ### Commands -/

/-- The types of a command are the texts of the tags; when these have identifiers, the command is
encoded to the bytes. -/
def CommandSpelling (c : Command) (ts : List TypeTag) (bs : Bytes) : Prop :=
  c.typeTexts = ts.map TypeTag.text ∧
    ((∀ t ∈ ts, t.HasIdentifiers) → Wire.command c = .ok bs)

theorem parsedTypes_texts {ts : List TypeTag} (h : ∀ t ∈ ts, t.HasIdentifiers) :
    (ts.map TypeTag.text).mapM parsedType = .ok ts := by
  rw [Except.mapM_eq_ok, List.forall₂_map_left_iff, List.forall₂_same]
  exact fun t ht => parsedType_text (h t ht)

/-- Some bytes are those of a command whose types are some tags. -/
inductive CommandBytes : Command → List TypeTag → Bytes → Prop
  | moveCall {call : MoveCall} {package : Address} {types : List TypeTag}
      (hpackage : call.package = .address package)
      (htexts : call.typeArguments = types.map TypeTag.text) :
    CommandBytes (.moveCall call) types (Wire.variant 0 ++ (Wire.address package ++
      (Wire.string call.module ++ (Wire.string call.function ++
        (Wire.seq Wire.typeTag types ++ Wire.seq Wire.argument call.arguments)))))
  | makeMoveVec {text : String} {type : TypeTag} {elements : List Argument}
      (htext : text = type.text) :
    CommandBytes (.makeMoveVec (some text) elements) [type] (Wire.variant 5 ++
      (Wire.option Wire.typeTag (some type) ++ Wire.seq Wire.argument elements))
  | untyped {c : Command} {bs : Bytes} (htexts : c.typeTexts = []) (hc : Wire.command c = .ok bs) :
    CommandBytes c [] bs

theorem CommandBytes.spelling {c : Command} {ts : List TypeTag} {bs : Bytes}
    (h : CommandBytes c ts bs) : CommandSpelling c ts bs := by
  cases h with
  | @moveCall call package types hpackage htexts =>
    refine ⟨htexts, fun hidentifiers => command_moveCall_eq_ok.mpr ⟨package, ts, hpackage, ?_, rfl⟩⟩
    rw [htexts]
    exact parsedTypes_texts hidentifiers
  | @makeMoveVec text type elements htext =>
    refine ⟨congrArg (fun s => [s]) htext, fun hidentifiers => ?_⟩
    refine command_makeMoveVec_eq_ok.mpr ⟨some type, ?_, rfl⟩
    rw [htext]
    exact Except.optionMapM_eq_ok.mpr (.some (parsedType_text (hidentifiers type (by simp))))
  | untyped htexts hc => exact ⟨htexts, fun _ => hc⟩

theorem tagged_commandBytes : Reader.command.Tagged commandTags CommandBytes := by
  refine .behind spells_variant fun tag => ?_
  split
  · refine .behind spells_address fun package => .behind spells_string fun module =>
      .behind spells_string fun function => (spells_seq_write spells_typeTag).tagged_self.andThen ?_
    rintro types _ _ ⟨rfl, rfl⟩
    exact spells_arguments.map fun arguments => .moveCall rfl rfl
  · exact Spells.tagged (spells_arguments.bind fun _ => spells_argument.map fun _ =>
      .untyped rfl (congrArg Except.ok (List.append_assoc _ _ _)))
  · exact Spells.tagged (spells_argument.bind fun _ => spells_arguments.map fun _ =>
      .untyped rfl (congrArg Except.ok (List.append_assoc _ _ _)))
  · exact Spells.tagged (spells_argument.bind fun _ => spells_arguments.map fun _ =>
      .untyped rfl (congrArg Except.ok (List.append_assoc _ _ _)))
  · exact Spells.tagged (spells_modules.bind fun _ => spells_addresses.map fun _ =>
      .untyped rfl (congrArg Except.ok (List.append_assoc _ _ _)))
  · refine .behind (spells_option spells_typeTag) fun type =>
      Spells.tagged (spells_arguments.map fun elements => ?_)
    cases type with
    | none => exact .untyped rfl (command_makeMoveVec_eq_ok.mpr ⟨none, rfl, rfl⟩)
    | some t => exact .makeMoveVec rfl
  · refine Spells.tagged (spells_modules.bind fun _ => spells_addresses.bind fun _ =>
      spells_address.bind fun _ => spells_argument.map fun _ => .untyped rfl ?_)
    simp only [Wire.command, List.append_assoc]
    rfl
  · exact fun _ _ _ h => absurd h fail_ne_ok

/-! ### Whole transactions -/

/-- What `CommandSpelling` says, of inputs and commands together. -/
def KindSpelling (kind : List Input × List Command) (ts : List TypeTag) (bs : Bytes) : Prop :=
  kind.2.flatMap Command.typeTexts = ts.map TypeTag.text ∧
    ((∀ t ∈ ts, t.HasIdentifiers) → ∀ tx : Transaction, tx.inputs = kind.1 →
      tx.commands = kind.2 → tx.encodeKind = .ok bs)

/-- What `CommandSpelling` says, of a whole transaction. -/
def TransactionSpelling (tx : Transaction) (ts : List TypeTag) (bs : Bytes) : Prop :=
  tx.commands.flatMap Command.typeTexts = ts.map TypeTag.text ∧
    ((∀ t ∈ ts, t.HasIdentifiers) → tx.encode = .ok bs)

theorem typeTexts_of_spellings {tagged : List (Command × List TypeTag)} {pieces : List Bytes}
    (h : List.Forall₂ (fun x bs => CommandSpelling x.1 x.2 bs) tagged pieces) :
    (tagged.map Prod.fst).flatMap Command.typeTexts =
      (tagged.flatMap Prod.snd).map TypeTag.text := by
  induction h with
  | nil => rfl
  | cons hx _ ih =>
    rw [List.map_cons, List.flatMap_cons, List.flatMap_cons, List.map_append, hx.1, ih]

theorem encodeKind_of_pieces {tx : Transaction} {inputs commands : List Bytes}
    (hinputs : List.Forall₂ (fun i bs => ∀ index, Wire.input index i = .ok bs) tx.inputs inputs)
    (hcommands : List.Forall₂ (fun c bs => Wire.command c = .ok bs) tx.commands commands) :
    tx.encodeKind = .ok (Wire.variant 0 ++ (Wire.length tx.inputs.length ++ inputs.flatten ++
      (Wire.length tx.commands.length ++ commands.flatten))) := by
  have hzip : List.Forall₂ (fun entry bs => Wire.input entry.2 entry.1 = .ok bs) tx.inputs.zipIdx
      inputs := (List.forall₂_zipIdx_iff.mpr hinputs).imp fun entry bs h => h entry.2
  rw [hinputs.length_eq, hcommands.length_eq]
  exact Transaction.encodeKind_eq_ok.mpr ⟨inputs, commands, hzip, hcommands, rfl⟩

/-- Some bytes are those of inputs and commands whose types are some tags. -/
def KindBytes (kind : List Input × List Command) (ts : List TypeTag) (bs : Bytes) : Prop :=
  ∃ (inputs : List Bytes) (tagged : List (Command × List TypeTag)) (commands : List Bytes),
    List.Forall₂ (fun i piece => ∀ index, Wire.input index i = .ok piece) kind.1 inputs ∧
      List.Forall₂ (fun x piece => CommandBytes x.1 x.2 piece) tagged commands ∧
      kind.2 = tagged.map Prod.fst ∧ ts = tagged.flatMap Prod.snd ∧
      bs = Wire.variant 0 ++ (Wire.length kind.1.length ++ inputs.flatten ++
        (Wire.length tagged.length ++ commands.flatten))

theorem KindBytes.spelling {kind : List Input × List Command} {ts : List TypeTag} {bs : Bytes}
    (h : KindBytes kind ts bs) : KindSpelling kind ts bs := by
  obtain ⟨inputs, tagged, pieces, hinputs, hpieces, hcommands, rfl, rfl⟩ := h
  refine ⟨?_, ?_⟩
  · rw [hcommands]
    exact typeTexts_of_spellings (hpieces.imp fun _ _ h => h.spelling)
  · rintro hidentifiers tx htxInputs htx
    rw [← htxInputs] at hinputs ⊢
    rw [hcommands] at htx
    have hencoded : List.Forall₂ (fun c bs => Wire.command c = .ok bs) tx.commands pieces := by
      rw [htx, List.forall₂_map_left_iff]
      refine hpieces.imp_of_mem fun x bs hx hbytes => hbytes.spelling.2 fun t ht => ?_
      exact hidentifiers t (List.mem_flatMap.mpr ⟨x, hx, ht⟩)
    rw [encodeKind_of_pieces hinputs hencoded, htx, List.length_map]

theorem tagged_kindBytes : Reader.kind.Tagged kindTags KindBytes := by
  refine .behind spells_variant fun tag => ?_
  split
  · refine .bind (spells_seq spells_input) ?_
    rintro inputs _ ⟨inputPieces, hinputs, rfl⟩ c kind c' h
    obtain ⟨commands, c₁, hcommands, h⟩ := bind_eq_ok.mp h
    obtain ⟨rfl, rfl⟩ := pure_eq_ok.mp h
    obtain ⟨tagged, htagged, rfl⟩ := seq_withTags tagged_commandBytes hcommands
    obtain ⟨_, ⟨pieces, hpieces, rfl⟩, hc⟩ := spells_seq tagged_commandBytes.withTags htagged
    exact ⟨_, _, _, bind_of_eq_ok htagged,
      ⟨inputPieces, tagged, pieces, hinputs, hpieces, rfl, rfl, rfl⟩, hc⟩
  · exact fun _ _ _ h => absurd h fail_ne_ok

theorem tagged_kind : Reader.kind.Tagged kindTags KindSpelling :=
  tagged_kindBytes.mono fun _ _ _ h => h.spelling

/-- Some bytes are those of a transaction whose types are some tags. -/
def TransactionBytes (tx : Transaction) (ts : List TypeTag) (bs : Bytes) : Prop :=
  ∃ sender owner payment price budget kind, tx.sender = some sender ∧
    tx.gas = ⟨some payment, some owner, some price, some budget⟩ ∧
    KindBytes (tx.inputs, tx.commands) ts kind ∧
    bs = Wire.variant 0 ++ (kind ++ (Wire.address sender ++ (Wire.seq Wire.objectRef payment ++
      (Wire.address owner ++ (Wire.u64 price ++ (Wire.u64 budget ++
        Wire.expirationTag tx.expiration))))))

theorem TransactionBytes.spelling {tx : Transaction} {ts : List TypeTag} {bs : Bytes}
    (h : TransactionBytes tx ts bs) : TransactionSpelling tx ts bs := by
  obtain ⟨sender, owner, payment, price, budget, kind, hsender, hgas, hkind, rfl⟩ := h
  obtain ⟨htexts, hencode⟩ := hkind.spelling
  exact ⟨htexts, fun hidentifiers => Transaction.encode_eq_ok.mpr ⟨sender, owner, payment, price,
    budget, kind, hsender, hgas, hencode hidentifiers tx rfl rfl, rfl⟩⟩

theorem tagged_transactionBytes : Reader.transaction.Tagged transactionTags TransactionBytes := by
  refine .behind spells_variant fun tag => ?_
  split
  · refine tagged_kindBytes.andThen ?_
    rintro ⟨inputs, commands⟩ ts kind hkind
    exact spells_address.bind fun sender => (spells_seq_write spells_objectRef).bind fun payment =>
      spells_address.bind fun owner => spells_u64.bind fun price => spells_u64.bind fun budget =>
        spells_expiration.map fun expiration =>
          ⟨sender, owner, payment, price, budget, kind, rfl, rfl, hkind, rfl⟩
  · exact fun _ _ _ h => absurd h fail_ne_ok

theorem tagged_transaction : Reader.transaction.Tagged transactionTags TransactionSpelling :=
  tagged_transactionBytes.mono fun _ _ _ h => h.spelling

theorem Tagged.decode {α : Type} {r : Reader α} {tags : Reader (List TypeTag)}
    {P : α → List TypeTag → Bytes → Prop} (hr : r.Tagged tags P) {bytes : Bytes} {a : α}
    (h : r.decode bytes = .ok a) :
    P a ((tags.run (.start bytes)).1.toOption.getD []) bytes := by
  obtain ⟨c, hc, hrest⟩ := decode_eq_ok.mp h
  obtain ⟨ts, d, bs, htags, hP, hbs⟩ := hr hc
  rw [hrest, List.append_nil] at hbs
  rw [Reader.run, show tags (.start bytes) = _ from htags, show bytes = bs from hbs]
  exact hP

end Reader

end Wire

/-! ### Main statement -/

namespace Transaction

/-- The type tags in the bytes of a transaction, in order. -/
def typeTags (bytes : List UInt8) : List TypeTag :=
  (Wire.Reader.transactionTags.run (.start bytes)).1.toOption.getD []

/-- The type tags in the bytes of a kind, in order. -/
def kindTypeTags (bytes : List UInt8) : List TypeTag :=
  (Wire.Reader.kindTags.run (.start bytes)).1.toOption.getD []

/-- **Encoding undoes decoding**: bytes that are accepted are the one encoding of what they stand for,
both for whole transactions and for kinds alone. The types of what is read are the texts of the type
tags in the bytes, and modules and names in these have to be identifiers. -/
theorem encode_decode (bytes : List UInt8) (tx : Transaction) :
    (decode bytes = .ok tx →
      tx.commands.flatMap Command.typeTexts = (typeTags bytes).map TypeTag.text ∧
        ((∀ t ∈ typeTags bytes, t.HasIdentifiers) → tx.encode = .ok bytes)) ∧
    (decodeKind bytes = .ok (tx.inputs, tx.commands) →
      tx.commands.flatMap Command.typeTexts = (kindTypeTags bytes).map TypeTag.text ∧
        ((∀ t ∈ kindTypeTags bytes, t.HasIdentifiers) → tx.encodeKind = .ok bytes)) := by
  constructor
  · intro h
    exact Wire.Reader.tagged_transaction.decode h
  · intro h
    obtain ⟨htexts, hencode⟩ := Wire.Reader.tagged_kind.decode h
    exact ⟨htexts, fun hidentifiers => hencode hidentifiers tx rfl rfl⟩

def noCoins : Transaction where
  sender := some (.ofUInt64 1)
  gas := ⟨some [], some (.ofUInt64 1), some 1000, some 50000⟩
  commands := [.makeMoveVec (some (TypeTag.struct (.ofUInt64 2) "coin" "Coin" [.u8]).text) []]

def noCoinsKind : List UInt8 :=
  [0, 0, 1, 5, 1, 7] ++ List.replicate 31 0 ++
    [2, 4, 99, 111, 105, 110, 4, 67, 111, 105, 110, 1, 1, 0]

def noCoinsBytes : List UInt8 :=
  0 :: (noCoinsKind ++ List.replicate 31 0 ++ [1, 0] ++ List.replicate 31 0 ++ [1] ++
    [0xe8, 3, 0, 0, 0, 0, 0, 0, 0x50, 0xc3, 0, 0, 0, 0, 0, 0, 0])

theorem encode_decode_noCoins :
    (decode noCoinsBytes = .ok noCoins ∧ (∀ t ∈ typeTags noCoinsBytes, t.HasIdentifiers) ∧
      noCoins.encode = .ok noCoinsBytes) ∧
    (decodeKind noCoinsKind = .ok (noCoins.inputs, noCoins.commands) ∧
      (∀ t ∈ kindTypeTags noCoinsKind, t.HasIdentifiers) ∧
      noCoins.encodeKind = .ok noCoinsKind) := by
  have hcoin : (TypeTag.struct (.ofUInt64 2) "coin" "Coin" [.u8]).HasIdentifiers :=
    ⟨by decide, trivial, trivial⟩
  have htags : typeTags noCoinsBytes = [.struct (.ofUInt64 2) "coin" "Coin" [.u8]] := by
    decide +kernel
  have hkindTags : kindTypeTags noCoinsKind = [.struct (.ofUInt64 2) "coin" "Coin" [.u8]] := by
    decide +kernel
  have hdecode : decode noCoinsBytes = .ok noCoins := by decide +kernel
  have hdecodeKind : decodeKind noCoinsKind = .ok (noCoins.inputs, noCoins.commands) := by
    decide +kernel
  have hidentifiers : ∀ t ∈ typeTags noCoinsBytes, t.HasIdentifiers := by simp [htags, hcoin]
  have hkindIdentifiers : ∀ t ∈ kindTypeTags noCoinsKind, t.HasIdentifiers := by
    simp [hkindTags, hcoin]
  refine ⟨⟨hdecode, hidentifiers, ?_⟩, hdecodeKind, hkindIdentifiers, ?_⟩
  · exact ((encode_decode noCoinsBytes noCoins).1 hdecode).2 hidentifiers
  · exact ((encode_decode noCoinsKind noCoins).2 hdecodeKind).2 hkindIdentifiers

end Transaction

end ObjectLedger
