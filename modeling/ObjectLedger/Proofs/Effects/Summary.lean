import ObjectLedger.Proofs.Effects.Codec

/-!
# The short answer

The short answer agrees with the whole decoder wherever that one accepts, and answers for every byte
string that starts with a version and the tag of a status. A text is there just when the whole status
can be read; what is behind the status then does not matter, although the lengths in it are checked
against what follows.
-/

namespace ObjectLedger

/-- The bytes are a version and `body`, which starts with the tag `kind` of a status. -/
def StatusAt (bytes : List UInt8) (kind : Nat) (body : List UInt8) : Prop :=
  kind ≤ 1 ∧ ∃ version ≤ 1, bytes = Wire.variant version ++ body ∧
    ∃ rest, body = Wire.variant kind ++ rest

/-! ### Tags -/

namespace Wire

theorem variant_of_le_one {tag : Nat} (h : tag ≤ 1) : variant tag = [UInt8.ofNat tag] := by
  have htag : tag = 0 ∨ tag = 1 := by omega
  rcases htag with rfl | rfl <;> rfl

theorem eq_of_variant_append_eq {tag tag' : Nat} {rest rest' : Bytes} (h : tag ≤ 1)
    (h' : tag' ≤ 1) (heq : variant tag ++ rest = variant tag' ++ rest') : tag = tag' := by
  rw [variant_of_le_one h, variant_of_le_one h'] at heq
  have hbyte := congrArg UInt8.toNat (List.cons.inj heq).1
  simp only [UInt8.toNat_ofNat'] at hbyte
  omega

theorem executionStatus_eq_variant (status : ExecutionStatus) :
    ∃ kind ≤ 1, (status.isSuccess = true ↔ kind = 0) ∧
      ∃ rest, executionStatus status = variant kind ++ rest := by
  cases status with
  | success => exact ⟨0, by omega, by simp [ExecutionStatus.isSuccess], [], rfl⟩
  | failure error command =>
    exact ⟨1, by omega, by simp [ExecutionStatus.isSuccess], _, List.append_assoc _ _ _⟩

namespace Reader

theorem inverts_effectsVersion : effectsVersion.Inverts Wire.variant (· ≤ 1) where
  reads version h := by
    have htag : version = 0 ∨ version = 1 := by omega
    refine (reads_variant (by omega)).bind_nil ?_
    rw [if_pos htag]
    exact Reads.pure version
  spells := by
    refine spells_variant.bind fun tag => ?_
    split_ifs with htag
    · exact .pure ⟨List.append_nil _, by omega⟩
    · exact .fail _

theorem reads_opaqueStatus {kind : Nat} (h : kind ≤ 1) :
    opaqueStatus.Reads (Wire.variant kind) ⟨kind == 0, none⟩ := by
  have htag : kind = 0 ∨ kind = 1 := by omega
  rcases htag with rfl | rfl
  · exact Reads.variantAlone (by decide) (Reads.pure _)
  · exact Reads.variantAlone (by decide) (Reads.pure _)

theorem spells_opaqueStatus :
    opaqueStatus.Spells fun _ bs => ∃ kind ≤ 1, bs = Wire.variant kind := by
  refine spells_variant.bind fun tag => ?_
  split
  · exact .pure ⟨0, by omega, List.append_nil _⟩
  · exact .pure ⟨1, by omega, List.append_nil _⟩
  · exact .fail _

end Reader

end Wire

open Wire

theorem Effects.encode_eq_status (e : Effects) :
    ∃ tail, e.encode = variant 1 ++ (executionStatus e.status ++ tail) := by
  simp only [encode, List.append_assoc]
  exact ⟨_, rfl⟩

/-! ### Cases of the short answer -/

theorem ExecutionStatus.summary_success (status : ExecutionStatus) :
    status.summary.success = status.isSuccess := by
  cases status <;> rfl

theorem ExecutionStatus.summary_error_isSome (status : ExecutionStatus) :
    status.summary.error.isSome = !status.isSuccess := by
  cases status <;> rfl

theorem effectsVersion_run {version : Nat} (h : version ≤ 1) (body : List UInt8) :
    Reader.effectsVersion.run (.start (variant version ++ body)) =
      (.ok version, ⟨(variant version).length, body⟩) :=
  Reader.inverts_effectsVersion.eq_ok_iff.mpr ⟨h, rfl, (Nat.zero_add _).symm⟩

theorem statusOf_status {version : Nat} (h : version ≤ 1) {status : ExecutionStatus}
    (hshort : status.Short) (tail : List UInt8) :
    statusOf (variant version ++ (executionStatus status ++ tail)) = .ok status.summary := by
  have hread : Reader.executionStatus.run
      ⟨(variant version).length, executionStatus status ++ tail⟩ = _ :=
    (Reader.readsIf_executionStatus _).reads hshort _ tail
  simp only [statusOf, effectsVersion_run h, hread]

theorem statusOf_opaque {version kind : Nat} (h : version ≤ 1) (hkind : kind ≤ 1)
    {rest : List UInt8} (hread : ¬∃ status c,
      Reader.executionStatus.run (.start (variant kind ++ rest)) = (.ok status, c)) :
    statusOf (variant version ++ (variant kind ++ rest)) = .ok ⟨kind == 0, none⟩ := by
  rcases hstatus : Reader.executionStatus.run ⟨(variant version).length, variant kind ++ rest⟩ with
    ⟨e | status, c⟩
  · have htag : Reader.opaqueStatus.run ⟨(variant version).length, variant kind ++ rest⟩ = _ :=
      Reader.reads_opaqueStatus hkind _ rest
    simp only [statusOf, effectsVersion_run h, hstatus, htag]
  · -- Where reading starts is of no account, so the status could be read from the start as well.
    obtain ⟨hshort, hbody, -⟩ := Reader.inverts_executionStatus.eq_ok_iff.mp hstatus
    have hstart := Reader.inverts_executionStatus.reads status hshort 0 c.rest
    rw [← show variant kind ++ rest = _ from hbody] at hstart
    exact absurd ⟨_, _, hstart⟩ hread

theorem statusAt_of_statusOf {bytes : List UInt8} {answer : StatusSummary}
    (h : statusOf bytes = .ok answer) : ∃ kind body, StatusAt bytes kind body := by
  rw [statusOf] at h
  split at h
  · cases h
  · rename_i version c hversion
    obtain ⟨hle, hbytes, -⟩ := Reader.inverts_effectsVersion.eq_ok_iff.mp hversion
    split at h
    · rename_i status c' hstatus
      obtain ⟨-, hbody, -⟩ := Reader.inverts_executionStatus.eq_ok_iff.mp hstatus
      obtain ⟨kind, hkind, -, rest, hrest⟩ := executionStatus_eq_variant status
      rw [hrest, List.append_assoc] at hbody
      exact ⟨kind, c.rest, hkind, version, hle, hbytes, _, hbody⟩
    · cases htag : Reader.opaqueStatus.run c with
      | mk outcome c' =>
        rw [htag] at h
        cases h
        obtain ⟨_, ⟨kind, hkind, rfl⟩, hbody⟩ := Reader.spells_opaqueStatus htag
        exact ⟨kind, c.rest, hkind, version, hle, hbytes, _, hbody⟩

theorem statusOf_of_statusAt {bytes body : List UInt8} {kind : Nat} {status : ExecutionStatus}
    {c : Cursor} (h : StatusAt bytes kind body)
    (hread : Reader.executionStatus.run (.start body) = (.ok status, c)) :
    (status.isSuccess = true ↔ kind = 0) ∧
      ∃ front, bytes = front ++ c.rest ∧ ∀ tail, statusOf (front ++ tail) = .ok status.summary := by
  obtain ⟨hkind, version, hversion, rfl, rest, hbody⟩ := h
  obtain ⟨hshort, hstatus, -⟩ := Reader.inverts_executionStatus.eq_ok_iff.mp hread
  replace hstatus : body = executionStatus status ++ c.rest := hstatus
  constructor
  · obtain ⟨tag, htag, hiff, details, hdetails⟩ := executionStatus_eq_variant status
    rw [hbody, hdetails, List.append_assoc] at hstatus
    obtain rfl := eq_of_variant_append_eq hkind htag hstatus
    exact hiff
  · refine ⟨variant version ++ executionStatus status, by rw [hstatus, List.append_assoc],
      fun tail => ?_⟩
    rw [List.append_assoc]
    exact statusOf_status hversion hshort tail

/-! ### Main statement -/

/-- **The short answer against the whole decoder.** It is the summary of whatever is decoded; there is
one just for bytes that start with a version and the tag of a status; it says success just for the
tag 0, and has a text just for the tag 1 with the rest of the status behind it. When the whole status
can be read, no change behind it changes the answer. -/
theorem statusOf_spec (bytes : List UInt8) :
    (∀ e, Effects.decode bytes = .ok e → statusOf bytes = .ok e.status.summary) ∧
    ((∃ answer, statusOf bytes = .ok answer) ↔ ∃ kind body, StatusAt bytes kind body) ∧
    (∀ kind body, StatusAt bytes kind body → ∃ answer, statusOf bytes = .ok answer ∧
      (answer.success = true ↔ kind = 0) ∧
      (answer.error.isSome = true ↔
        kind = 1 ∧ ∃ status c, Reader.executionStatus.run (.start body) = (.ok status, c))) ∧
    (∀ kind body status c, StatusAt bytes kind body →
      Reader.executionStatus.run (.start body) = (.ok status, c) →
      ∃ front, bytes = front ++ c.rest ∧ statusOf bytes = .ok status.summary ∧
        ∀ tail, statusOf (front ++ tail) = statusOf bytes) := by
  have hanswer : ∀ kind body, StatusAt bytes kind body → ∃ answer, statusOf bytes = .ok answer ∧
      (answer.success = true ↔ kind = 0) ∧ (answer.error.isSome = true ↔
        kind = 1 ∧ ∃ status c, Reader.executionStatus.run (.start body) = (.ok status, c)) := by
    intro kind body h
    have hle : kind ≤ 1 := h.1
    by_cases hread : ∃ status c, Reader.executionStatus.run (.start body) = (.ok status, c)
    · obtain ⟨status, c, hstatus⟩ := hread
      obtain ⟨hkind, front, hbytes, htail⟩ := statusOf_of_statusAt h hstatus
      refine ⟨status.summary, hbytes ▸ htail c.rest, ?_, ?_⟩
      · rw [status.summary_success, hkind]
      · have hone : kind = 1 ↔ ¬kind = 0 := by omega
        rw [status.summary_error_isSome, Bool.not_eq_true', ← Bool.not_eq_true, hkind, hone]
        exact ⟨fun hne => ⟨hne, status, c, hstatus⟩, fun hne => hne.1⟩
    · obtain ⟨hkind, version, hversion, rfl, rest, rfl⟩ := h
      refine ⟨_, statusOf_opaque hversion hkind hread, by simp, ?_⟩
      simp only [Option.isSome_none, Bool.false_eq_true, false_iff, not_and]
      exact fun _ => hread
  refine ⟨?_, ⟨?_, ?_⟩, hanswer, ?_⟩
  · intro e he
    obtain ⟨hshort, rfl⟩ := Reader.inverts_effects.decode_eq_ok.mp he
    obtain ⟨tail, htail⟩ := e.encode_eq_status
    rw [htail]
    exact statusOf_status (Nat.le_refl 1) hshort.status tail
  · rintro ⟨answer, h⟩
    exact statusAt_of_statusOf h
  · rintro ⟨kind, body, h⟩
    obtain ⟨answer, h, -⟩ := hanswer kind body h
    exact ⟨answer, h⟩
  · intro kind body status c h hread
    obtain ⟨-, front, hbytes, htail⟩ := statusOf_of_statusAt h hread
    have hself : statusOf bytes = .ok status.summary := hbytes ▸ htail c.rest
    exact ⟨front, hbytes, hself, fun tail => (htail tail).trans hself.symm⟩

/-- Effects of a transaction whose second command was given a wrong argument. -/
def Effects.mistyped : Effects :=
  { Effects.ofFee ⟨(Address.ofUInt64 8).value⟩ ⟨.ofUInt64 5, 7, ⟨(Address.ofUInt64 9).value⟩⟩
      ⟨(Address.ofUInt64 10).value⟩ (.ofUInt64 1) 8 with
    status := .failure (.commandArgumentError 3 .typeMismatch) (some 1) }

/-- A wrong argument is reported in full, and is reported the same when the effects are cut off behind
the status and other bytes stand there. -/
theorem statusOf_spec_mistyped :
    ∃ front body c,
      Effects.decode Effects.mistyped.encode = .ok Effects.mistyped ∧
      StatusAt Effects.mistyped.encode 1 body ∧
      Reader.executionStatus.run (.start body) = (.ok Effects.mistyped.status, c) ∧
      Effects.mistyped.encode = front ++ c.rest ∧
      statusOf Effects.mistyped.encode = .ok ⟨false,
        some "CommandArgumentError(\x7b\"argIdx\":3,\"kind\":\"TypeMismatch\"\x7d)"⟩ ∧
      statusOf (front ++ [255, 255]) = statusOf Effects.mistyped.encode := by
  have hshort : Effects.mistyped.Short := ⟨trivial, by decide, by decide, by decide⟩
  have hdecode : Effects.decode Effects.mistyped.encode = .ok Effects.mistyped :=
    ((Reader.readsIf_effects _).reads hshort).decode
  obtain ⟨tail, htail⟩ := Effects.mistyped.encode_eq_status
  have hat : StatusAt Effects.mistyped.encode 1 (executionStatus Effects.mistyped.status ++ tail) :=
    ⟨Nat.le_refl 1, 1, Nat.le_refl 1, htail, _, rfl⟩
  have hread := (Reader.readsIf_executionStatus _).reads hshort.status 0 tail
  obtain ⟨hsummary, -, -, hsuffix⟩ := statusOf_spec Effects.mistyped.encode
  obtain ⟨front, hfront, -, hanswer⟩ := hsuffix _ _ _ _ hat hread
  have htext : Effects.mistyped.status.summary = ⟨false,
      some "CommandArgumentError(\x7b\"argIdx\":3,\"kind\":\"TypeMismatch\"\x7d)"⟩ := by
    decide +kernel
  exact ⟨front, _, _, hdecode, hat, hread, hfront, htext ▸ hsummary _ hdecode, hanswer [255, 255]⟩

end ObjectLedger
