import ObjectLedger.Proofs.Effects.Codec
import ObjectLedger.Proofs.Wire.Persisting
import ObjectLedger.Transaction.Decode

/-!
# No accepted bytes start others

A type tag, a command, a whole transaction: each is read in the same way whatever follows it, although the
lengths in it are compared with what follows. So the bytes accepted as a transaction, as inputs and
commands, or as effects are prefix-free.
-/

namespace ObjectLedger.Wire

namespace Reader

theorem persists_typeTagWithin (levels : Nat) : (typeTagWithin levels).Persists := by
  induction levels with
  | zero => exact persists_fail _
  | succ levels ih =>
    refine .bind persists_variant fun tag => ?_
    split
    case h_7 => exact ih.map _
    case h_8 =>
      exact .bind persists_address fun _ => .bind persists_string fun _ => .bind persists_string fun _ =>
        ih.seq.map _
    case h_12 => exact persists_fail _
    all_goals exact persists_pure _

theorem persists_argument : argument.Persists := by
  refine .bind persists_variant fun tag => ?_
  split
  · exact persists_pure _
  · exact .map persists_u16 _
  · exact .map persists_u16 _
  · exact .bind persists_u16 fun _ => .map persists_u16 _
  · exact persists_fail _

theorem persists_objectArg : objectArg.Persists := by
  refine .bind persists_variant fun tag => ?_
  split
  · exact .map persists_objectRef _
  · exact .bind persists_address fun _ => .bind persists_u64 fun _ => .map persists_bool _
  · exact .map persists_objectRef _
  · exact persists_fail _

theorem persists_input : input.Persists := by
  refine .bind persists_variant fun tag => ?_
  split
  · exact .map persists_bytes _
  · exact .map persists_objectArg _
  · exact persists_fail _

theorem persists_command : command.Persists := by
  have harguments : (seq argument).Persists := .seq persists_argument
  refine .bind persists_variant fun tag => ?_
  split
  · exact .bind persists_address fun _ => .bind persists_string fun _ => .bind persists_string fun _ =>
      .bind (.seq (persists_typeTagWithin _)) fun _ => harguments.map _
  · exact harguments.bind fun _ => .map persists_argument _
  · exact .bind persists_argument fun _ => harguments.map _
  · exact .bind persists_argument fun _ => harguments.map _
  · exact .bind (.seq persists_bytes) fun _ => .map (.seq persists_address) _
  · exact .bind (.option (persists_typeTagWithin _)) fun _ => harguments.map _
  · exact .bind (.seq persists_bytes) fun _ => .bind (.seq persists_address) fun _ =>
      .bind persists_address fun _ => .map persists_argument _
  · exact persists_fail _

theorem persists_kind : kind.Persists := by
  refine .bind persists_variant fun tag => ?_
  split
  · exact .bind (.seq persists_input) fun _ => .map (.seq persists_command) _
  · exact persists_fail _

theorem persists_expiration : expiration.Persists := by
  refine .bind persists_variant fun tag => ?_
  split
  · exact persists_pure _
  · exact .map persists_u64 _
  · exact persists_fail _

theorem persists_transaction : transaction.Persists := by
  refine .bind persists_variant fun tag => ?_
  split
  · exact .bind persists_kind fun _ => .bind persists_address fun _ =>
      .bind (.seq persists_objectRef) fun _ => .bind persists_address fun _ =>
        .bind persists_u64 fun _ => .bind persists_u64 fun _ => .map persists_expiration _
  · exact persists_fail _

end Reader

/-- **No accepted bytes start others.** Whatever is accepted as a transaction, as inputs and commands, or
as effects, nothing in front of its last byte is, and nothing that goes on behind it. -/
theorem prefixFree_decoders :
    PrefixFree Transaction.decode ∧ PrefixFree Transaction.decodeKind ∧ PrefixFree Effects.decode :=
  ⟨Reader.Persists.prefixFree Reader.persists_transaction,
    Reader.Persists.prefixFree Reader.persists_kind,
    Reader.Persists.prefixFree (Reader.Inverts.persists Reader.inverts_effects)⟩

/-- No inputs and no commands: two bytes are too few for them, and four too many. -/
example : Transaction.decodeKind [0, 0, 0] = .ok ([], []) ∧
    Transaction.decodeKind [0, 0] = .error (.truncated 2 1 0) ∧
    Transaction.decodeKind [0, 0, 0, 0] = .error (.trailing 1) := by
  decide

end ObjectLedger.Wire
