import ObjectLedger.Effects.Codec
import ObjectLedger.Proofs.Effects.Failure

/-!
# Effects, there and back

Effects whose strings and lists have lengths of 32 bits, and the byte strings that are accepted as
effects, stand for each other one to one. The bytes of other effects are refused.
-/

namespace ObjectLedger

/-! ### Bounds -/

def ExecutionStatus.Short : ExecutionStatus → Prop
  | success => True
  | failure error _ => error.Short

/-- The strings and lists of effects have lengths of 32 bits. -/
structure Effects.Short (e : Effects) : Prop where
  status : e.status.Short
  dependencies : e.dependencies.length < 2 ^ 32
  changedObjects : e.changedObjects.length < 2 ^ 32
  unchangedShared : e.unchangedShared.length < 2 ^ 32

namespace Wire.Reader

variable {α : Type}

/-! ### Status -/

theorem readsIf_executionStatus (status : ExecutionStatus) :
    executionStatus.ReadsIf status.Short (Wire.executionStatus status) status := by
  cases status with
  | success => exact Reads.always (Reads.variantAlone (by decide) (Reads.pure _))
  | failure error command =>
    rw [Wire.executionStatus, List.append_assoc]
    exact .behindVariant (by decide) ((readsIf_executionFailure error).bind
      ((reads_option fun n _ => reads_u64 n).always.map _))

theorem spells_executionStatus :
    executionStatus.Spells fun status bs => bs = Wire.executionStatus status ∧ status.Short := by
  refine spells_variant.bind fun tag => ?_
  split
  · exact .pure ⟨List.append_nil _, trivial⟩
  · exact spells_executionFailure.bindWith fun error h => (spells_option spells_u64).map fun _ =>
      ⟨(List.append_assoc _ _ _).symm, h⟩
  · exact .fail _

theorem inverts_executionStatus :
    executionStatus.Inverts Wire.executionStatus ExecutionStatus.Short :=
  ⟨fun status => (readsIf_executionStatus status).reads, spells_executionStatus⟩

/-! ### Objects before and after -/

theorem reads_objectIn (o : ObjectIn) : objectIn.Reads (Wire.objectIn o) o := by
  cases o with
  | absent => exact Reads.variantAlone (by decide) (Reads.pure _)
  | present version d o =>
    simp only [Wire.objectIn, List.append_assoc]
    exact Reads.behindVariant (by decide) ((reads_u64 version).bind ((reads_digest d).bind
      ((reads_owner o).map _)))

theorem spells_objectIn : objectIn.Spells fun o bs => bs = Wire.objectIn o := by
  refine spells_variant.bind fun tag => ?_
  split
  · exact .pure (List.append_nil _)
  · refine spells_u64.bind fun version => spells_digest.bind fun d => spells_owner.map fun o => ?_
    simp only [Wire.objectIn, List.append_assoc]
  · exact .fail _

theorem reads_objectOut (o : ObjectOut) : objectOut.Reads (Wire.objectOut o) o := by
  cases o with
  | absent => exact Reads.variantAlone (by decide) (Reads.pure _)
  | object d o =>
    rw [Wire.objectOut, List.append_assoc]
    exact Reads.behindVariant (by decide) ((reads_digest d).bind ((reads_owner o).map _))
  | package version d =>
    rw [Wire.objectOut, List.append_assoc]
    exact Reads.behindVariant (by decide) ((reads_u64 version).bind ((reads_digest d).map _))

theorem spells_objectOut : objectOut.Spells fun o bs => bs = Wire.objectOut o := by
  refine spells_variant.bind fun tag => ?_
  split
  · exact .pure (List.append_nil _)
  · exact spells_digest.bind fun _ => spells_owner.map fun _ => (List.append_assoc _ _ _).symm
  · exact spells_u64.bind fun _ => spells_digest.map fun _ => (List.append_assoc _ _ _).symm
  · exact .fail _

theorem reads_idOperation (o : IdOperation) : idOperation.Reads (Wire.idOperation o) o := by
  cases o <;> exact Reads.variantAlone (by decide) (Reads.pure _)

theorem spells_idOperation : idOperation.Spells fun o bs => bs = Wire.idOperation o := by
  refine spells_variant.bind fun tag => ?_
  split
  case h_4 => exact .fail _
  all_goals exact .pure (List.append_nil _)

theorem reads_objectChange (c : ObjectChange) : objectChange.Reads (Wire.objectChange c) c := by
  rw [Wire.objectChange, List.append_assoc]
  exact (reads_objectIn c.input).bind ((reads_objectOut c.output).bind
    ((reads_idOperation c.idOperation).map _))

theorem spells_objectChange : objectChange.Spells fun c bs => bs = Wire.objectChange c :=
  spells_objectIn.bind fun _ => spells_objectOut.bind fun _ => spells_idOperation.map fun _ =>
    (List.append_assoc _ _ _).symm

theorem reads_unchangedShared (s : UnchangedShared) :
    unchangedShared.Reads (Wire.unchangedShared s) s := by
  cases s with
  | readOnlyRoot version d =>
    rw [Wire.unchangedShared, List.append_assoc]
    exact Reads.behindVariant (by decide) ((reads_u64 version).bind ((reads_digest d).map _))
  | mutateDeleted version => exact Reads.behindVariant (by decide) ((reads_u64 version).map _)
  | readDeleted version => exact Reads.behindVariant (by decide) ((reads_u64 version).map _)
  | cancelled version => exact Reads.behindVariant (by decide) ((reads_u64 version).map _)
  | perEpochConfig => exact Reads.variantAlone (by decide) (Reads.pure _)

theorem spells_unchangedShared :
    unchangedShared.Spells fun s bs => bs = Wire.unchangedShared s := by
  refine spells_variant.bind fun tag => ?_
  split
  · exact spells_u64.bind fun _ => spells_digest.map fun _ => (List.append_assoc _ _ _).symm
  · exact spells_u64.map fun _ => rfl
  · exact spells_u64.map fun _ => rfl
  · exact spells_u64.map fun _ => rfl
  · exact .pure (List.append_nil _)
  · exact .fail _

theorem reads_keyed {read : Reader α} {bs : Bytes} {a : α} (id : ObjectId) (h : read.Reads bs a) :
    (keyed read).Reads (Wire.address id ++ bs) (id, a) :=
  (reads_address id).bind (h.map _)

theorem spells_keyed {read : Reader α} {write : α → Bytes}
    (hread : read.Spells fun a bs => bs = write a) :
    (keyed read).Spells fun entry bs => bs = Wire.address entry.1 ++ write entry.2 :=
  spells_address.bind fun _ => hread.map fun _ => rfl

theorem keyed_ne_nil (id : ObjectId) (bs : Bytes) : Wire.address id ++ bs ≠ [] := fun h =>
  address_ne_nil id (List.append_eq_nil_iff.mp h).1

/-! ### Costs and whole effects -/

theorem reads_gasCost (g : GasCost) : gasCost.Reads (Wire.gasCost g) g := by
  simp only [Wire.gasCost, List.append_assoc]
  exact (reads_u64 g.computation).bind ((reads_u64 g.storage).bind ((reads_u64 g.rebate).bind
    ((reads_u64 g.nonRefundable).map _)))

theorem spells_gasCost : gasCost.Spells fun g bs => bs = Wire.gasCost g := by
  refine spells_u64.bind fun computation => spells_u64.bind fun storage => spells_u64.bind
    fun rebate => spells_u64.map fun nonRefundable => ?_
  simp only [Wire.gasCost, List.append_assoc]

theorem readsIf_effects (e : Effects) : effects.ReadsIf e.Short e.encode e := by
  have hdependencies : (seq digest).ReadsIf e.Short (Wire.seq Wire.digest e.dependencies)
      e.dependencies :=
    readsIf_seq (fun h => h.dependencies) digest_ne_nil fun d _ => (reads_digest d).always
  have hchanged := readsIf_seq (Q := e.Short) (fun h => h.changedObjects)
    (fun entry => keyed_ne_nil entry.1 _)
    fun entry _ => (reads_keyed entry.1 (reads_objectChange entry.2)).always
  have hunchanged := readsIf_seq (Q := e.Short) (fun h => h.unchangedShared)
    (fun entry => keyed_ne_nil entry.1 _)
    fun entry _ => (reads_keyed entry.1 (reads_unchangedShared entry.2)).always
  simp only [Effects.encode, List.append_assoc]
  exact .behindVariant (by decide) <| ((readsIf_executionStatus e.status).mono fun h => h.status).bind <|
    (reads_u64 e.executedEpoch).always.bind <| (reads_gasCost e.gasUsed).always.bind <|
    (reads_digest e.transactionDigest).always.bind <|
    (reads_option fun n _ => reads_u32 n).always.bind <|
    (reads_option fun d _ => reads_digest d).always.bind <| hdependencies.bind <|
    (reads_u64 e.lamportVersion).always.bind <| hchanged.bind <| hunchanged.bind <|
    (reads_option fun d _ => reads_digest d).always.map _

theorem spells_effects : effects.Spells fun e bs => bs = e.encode ∧ e.Short := by
  refine spells_variant.bind fun tag => ?_
  split
  · refine spells_executionStatus.bindWith fun status hstatus => spells_u64.bind fun epoch =>
      spells_gasCost.bind fun gas => spells_digest.bind fun transaction =>
      (spells_option spells_u32).bind fun index => (spells_option spells_digest).bind fun events =>
      (spells_seq_write_lt spells_digest).bindWith fun dependencies hdependencies =>
      spells_u64.bind fun lamport =>
      (spells_seq_write_lt (spells_keyed spells_objectChange)).bindWith fun changed hchanged =>
      (spells_seq_write_lt (spells_keyed spells_unchangedShared)).bindWith
        fun unchanged hunchanged => (spells_option spells_digest).map fun aux =>
      ⟨?_, hstatus, hdependencies, hchanged, hunchanged⟩
    simp only [Effects.encode, List.append_assoc]
  · exact .fail _
  · exact .fail _

theorem inverts_effects : effects.Inverts Effects.encode Effects.Short :=
  ⟨fun e => (readsIf_effects e).reads, spells_effects⟩

end Wire.Reader

namespace Effects

theorem eq_of_decode_encode {e e' : Effects} (h : decode e.encode = .ok e') : e' = e :=
  (Wire.Reader.readsIf_effects e).takes.decode h

/-! ### Main statement -/

/-- **Decoding and encoding are inverse to each other**: bytes are accepted just when they encode
effects within the bounds of the wire, and they are decoded to these effects. -/
theorem decode_eq_ok_iff_encode (e : Effects) (bytes : List UInt8) :
    decode bytes = .ok e ↔ e.Short ∧ e.encode = bytes := by
  rw [decode]
  exact Wire.Reader.inverts_effects.decode_eq_ok

end Effects

end ObjectLedger
