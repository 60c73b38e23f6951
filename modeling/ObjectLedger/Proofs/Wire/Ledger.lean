import ObjectLedger.Proofs.Ledger.Address
import ObjectLedger.Proofs.Wire.Framing
import ObjectLedger.Wire.Ledger

/-!
# Addresses, digests, references and owners, there and back

Thirty-two bytes are a type of their own, so reading them fails only for want of bytes; a digest
stands behind a length that has to be thirty-two.
-/

namespace ObjectLedger

namespace Wire.Reader

theorem reads_bytes32 (b : Bytes32) : bytes32.Reads b.bytes b := by
  refine Reads.offset fun start => ?_
  have htake := reads_take b.bytes
  rw [b.length_bytes] at htake
  refine htake.bind_nil ?_
  rw [Bytes32.ofBytes?_bytes]
  exact Reads.pure b

theorem spells_bytes32 : bytes32.Spells fun b bs => bs = b.bytes := by
  refine .offset fun start => (spells_take 32).bind fun bs => ?_
  cases hb : Bytes32.ofBytes? bs with
  | none => exact .fail _
  | some b =>
    rw [Bytes32.bytes_of_ofBytes? hb]
    exact .pure (List.append_nil _)

theorem reads_address (a : Address) : Reader.address.Reads (Wire.address a) a :=
  (reads_bytes32 a.value).map Address.mk

theorem spells_address : Reader.address.Spells fun a bs => bs = Wire.address a :=
  spells_bytes32.map fun _ => rfl

theorem address_ne_nil (a : Address) : Wire.address a ≠ [] := by
  intro h
  have := a.value.length_bytes
  rw [show a.value.bytes = [] from h] at this
  cases this

theorem reads_digest (d : Digest) : Reader.digest.Reads (Wire.digest d) d := by
  refine Reads.offset fun start => ?_
  have hlen : d.bytes.length < 2 ^ 32 := by
    rw [show d.bytes.length = 32 from d.value.length_bytes]
    decide
  have hvalue : Bytes32.ofBytes? d.bytes = some d.value := Bytes32.ofBytes?_bytes d.value
  refine (reads_bytes hlen).bind_nil ?_
  rw [hvalue]
  exact Reads.pure d

theorem spells_digest : Reader.digest.Spells fun d bs => bs = Wire.digest d := by
  refine .offset fun start => spells_bytes.bind fun bs => ?_
  cases hb : Bytes32.ofBytes? bs with
  | none => exact .fail _
  | some b =>
    rw [Bytes32.bytes_of_ofBytes? hb]
    exact .pure (List.append_nil _)

theorem reads_objectRef (r : ObjectRef) : Reader.objectRef.Reads (Wire.objectRef r) r := by
  rw [Wire.objectRef, List.append_assoc]
  exact (reads_address r.objectId).bind
    ((reads_u64 r.version).bind ((reads_digest r.digest).map _))

theorem spells_objectRef : Reader.objectRef.Spells fun r bs => bs = Wire.objectRef r :=
  spells_address.bind fun _ => spells_u64.bind fun _ => spells_digest.map fun _ =>
    (List.append_assoc _ _ _).symm

theorem objectRef_ne_nil (r : ObjectRef) : Wire.objectRef r ≠ [] := by
  simp [Wire.objectRef, address_ne_nil]

theorem digest_ne_nil (d : Digest) : Wire.digest d ≠ [] := variant_append_ne_nil _ _

theorem reads_owner (o : Owner) : Reader.owner.Reads (Wire.owner o) o := by
  cases o with
  | address a => exact Reads.behindVariant (by decide) ((reads_address a).map _)
  | object a => exact Reads.behindVariant (by decide) ((reads_address a).map _)
  | shared version => exact Reads.behindVariant (by decide) ((reads_u64 version).map _)
  | immutable => exact Reads.variantAlone (by decide) (Reads.pure _)
  | consensus version a =>
    rw [Wire.owner, List.append_assoc]
    exact Reads.behindVariant (by decide) ((reads_u64 version).bind ((reads_address a).map _))

theorem spells_owner : Reader.owner.Spells fun o bs => bs = Wire.owner o := by
  refine spells_variant.bind fun tag => ?_
  split
  · exact spells_address.map fun _ => rfl
  · exact spells_address.map fun _ => rfl
  · exact spells_u64.map fun _ => rfl
  · exact .pure (List.append_nil _)
  · exact spells_u64.bind fun _ => spells_address.map fun _ => (List.append_assoc _ _ _).symm
  · exact .fail _

end Wire.Reader

end ObjectLedger
