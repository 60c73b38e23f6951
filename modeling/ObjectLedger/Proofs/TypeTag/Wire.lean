import ObjectLedger.Proofs.TypeTag.Basic
import ObjectLedger.Proofs.Wire.Ledger
import ObjectLedger.Transaction.Decode
import ObjectLedger.Transaction.Encode

/-!
# Type tags on the wire

A type tag is read back as long as it has no more levels than the reader opens and its strings and
lists have lengths of 32 bits, and else it is refused. Whatever is read as a type tag is the one spelling
of that tag.
-/

namespace ObjectLedger

namespace Wire

theorem typeTags_eq_flatMap (ts : List TypeTag) : typeTags ts = ts.flatMap typeTag := by
  induction ts with
  | nil => rfl
  | cons t ts ih => rw [typeTags, ih, List.flatMap_cons]

theorem typeTag_ne_nil (t : TypeTag) : typeTag t ≠ [] := by
  cases t <;> simp [typeTag, variant, Reader.uleb_ne_nil]

namespace Reader

theorem readsIf_typeTagWithin (t : TypeTag) : ∀ levels,
    (typeTagWithin levels).ReadsIf (t.height < levels ∧ t.Short) (Wire.typeTag t) t := by
  induction t using TypeTag.byParts with
  | primitive t ht =>
    rintro (_ | levels)
    · exact ⟨fun h => absurd h.1 (Nat.not_lt_zero _), .fail _⟩
    · cases t
      case vector => exact ht.elim
      case struct => exact ht.elim
      all_goals exact Reads.always (Reads.variantAlone (by decide) (Reads.pure _))
  | vector element ih =>
    rintro (_ | levels)
    · exact ⟨fun h => absurd h.1 (Nat.not_lt_zero _), .fail _⟩
    · refine .behindVariant (by decide) (.map (.mono (ih levels) ?_) _)
      rintro ⟨hlevels, hshort⟩
      rw [TypeTag.height] at hlevels
      exact ⟨by omega, hshort⟩
  | struct owner module name params ih =>
    rintro (_ | levels)
    · exact ⟨fun h => absurd h.1 (Nat.not_lt_zero _), .fail _⟩
    · have hread : (seq (typeTagWithin levels)).ReadsIf
          ((TypeTag.struct owner module name params).height < levels + 1 ∧
            (TypeTag.struct owner module name params).Short)
          (Wire.seq Wire.typeTag params) params := by
        refine readsIf_seq (fun h => h.2.1.2.2) typeTag_ne_nil fun p hp => (ih p hp levels).mono ?_
        rintro ⟨hlevels, -, hparams⟩
        rw [TypeTag.height] at hlevels
        have hheight := TypeTag.height_lt_paramsHeight hp
        exact ⟨by omega, hparams.of_mem hp⟩
      rw [Wire.seq, ← typeTags_eq_flatMap] at hread
      rw [Wire.typeTag]
      simp only [List.append_assoc]
      exact .behindVariant (by decide) ((reads_address owner).always.bind
        ((readsIf_string fun h => h.2.1.1).bind
          ((readsIf_string fun h => h.2.1.2.1).bind (hread.map _))))

theorem spells_typeTagWithin (levels : Nat) :
    (typeTagWithin levels).Spells fun t bs => bs = Wire.typeTag t := by
  induction levels with
  | zero => exact .fail _
  | succ levels ih =>
    refine spells_variant.bind fun tag => ?_
    split
    case h_7 => exact ih.map fun _ => rfl
    case h_8 =>
      refine spells_address.bind fun owner => spells_string.bind fun module =>
        spells_string.bind fun name => (spells_seq_write ih).map fun params => ?_
      rw [Wire.typeTag, Wire.seq, typeTags_eq_flatMap]
      simp only [List.append_assoc]
    case h_12 => exact .fail _
    all_goals exact .pure (List.append_nil _)

end Reader

end Wire

end ObjectLedger
