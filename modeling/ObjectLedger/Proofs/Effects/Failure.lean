import ObjectLedger.Effects.FailureWire
import ObjectLedger.Proofs.Wire.Ledger

/-!
# Failures, there and back

Every reason is read back from its bytes as long as its strings and lists have lengths of 32 bits, and
whatever is read as a reason is the one spelling of it and has such lengths. The cases follow the tags:
the reasons with details one by one, those without details together.
-/

namespace ObjectLedger

/-! ### Bounds -/

def ModuleId.Short (m : ModuleId) : Prop := (utf8Bytes m.name).length < 2 ^ 32

def CodeLocation.Short (l : CodeLocation) : Prop :=
  l.module.Short ∧ ∀ name ∈ l.functionName, (utf8Bytes name).length < 2 ^ 32

/-- The bytes in what is wrong with an upgrade have a length of 32 bits. -/
def UpgradeFault.Short : UpgradeFault → Prop
  | digestDoesNotMatch digest => digest.length < 2 ^ 32
  | _ => True

/-- The strings, bytes and lists in a reason have lengths of 32 bits. -/
def ExecutionFailure.Short : ExecutionFailure → Prop
  | movePrimitiveRuntimeError location => ∀ l ∈ location, l.Short
  | moveAbort location _ => location.Short
  | packageUpgradeError fault => fault.Short
  | executionCancelledDueToSharedObjectCongestion objects => objects.length < 2 ^ 32
  | addressDeniedForCoin _ coinType | coinTypeGlobalPause coinType =>
    (utf8Bytes coinType).length < 2 ^ 32
  | _ => True

namespace Wire.Reader

/-! ### Locations -/

theorem readsIf_moduleId (m : ModuleId) : moduleId.ReadsIf m.Short (Wire.moduleId m) m :=
  (reads_address m.address).always.bind ((readsIf_string id).map _)

theorem spells_moduleId : moduleId.Spells fun m bs => bs = Wire.moduleId m ∧ m.Short :=
  spells_address.bind fun _ => spells_string_lt.mapWith fun _ h => ⟨rfl, h⟩

theorem readsIf_codeLocation (l : CodeLocation) :
    codeLocation.ReadsIf l.Short (Wire.codeLocation l) l := by
  simp only [Wire.codeLocation, List.append_assoc]
  exact ((readsIf_moduleId l.module).mono And.left).bind ((reads_u16 l.function).always.bind
    ((reads_u16 l.instruction).always.bind
      ((readsIf_option fun name hname => readsIf_string fun h => h.2 name hname).map _)))

theorem spells_codeLocation :
    codeLocation.Spells fun l bs => bs = Wire.codeLocation l ∧ l.Short := by
  refine spells_moduleId.bindWith fun m hm => spells_u16.bind fun function =>
    spells_u16.bind fun instruction => (spells_optionWith spells_string_lt).mapWith
      fun name hname => ⟨?_, hm, hname⟩
  simp only [Wire.codeLocation, List.append_assoc]

/-! ### Faults of arguments and of upgrades -/

theorem reads_argumentFault (fault : ArgumentFault) :
    argumentFault.Reads (Wire.argumentFault fault) fault := by
  cases fault
  case indexOutOfBounds index | invalidResultArity index =>
    exact Reads.behindVariant (by decide) ((reads_u16 index).map _)
  case secondaryIndexOutOfBounds result secondary =>
    rw [Wire.argumentFault, List.append_assoc]
    exact Reads.behindVariant (by decide) ((reads_u16 result).bind ((reads_u16 secondary).map _))
  all_goals exact Reads.variantAlone (by decide) (Reads.pure _)

theorem spells_argumentFault :
    argumentFault.Spells fun fault bs => bs = Wire.argumentFault fault := by
  refine spells_variant.bind fun tag => ?_
  split
  case h_5 | h_7 => exact spells_u16.map fun _ => rfl
  case h_6 =>
    exact spells_u16.bind fun _ => spells_u16.map fun _ => (List.append_assoc _ _ _).symm
  case h_14 => exact .fail _
  all_goals exact .pure (List.append_nil _)

theorem reads_typeArgumentFault (fault : TypeArgumentFault) :
    typeArgumentFault.Reads (Wire.typeArgumentFault fault) fault := by
  cases fault <;> exact Reads.variantAlone (by decide) (Reads.pure _)

theorem spells_typeArgumentFault :
    typeArgumentFault.Spells fun fault bs => bs = Wire.typeArgumentFault fault := by
  refine spells_variant.bind fun tag => ?_
  split
  case h_3 => exact .fail _
  all_goals exact .pure (List.append_nil _)

theorem readsIf_upgradeFault (fault : UpgradeFault) :
    upgradeFault.ReadsIf fault.Short (Wire.upgradeFault fault) fault := by
  cases fault with
  | unableToFetchPackage package =>
    exact .behindVariant (by decide) ((reads_address package).always.map _)
  | notAPackage object => exact .behindVariant (by decide) ((reads_address object).always.map _)
  | incompatibleUpgrade => exact Reads.always (Reads.variantAlone (by decide) (Reads.pure _))
  | digestDoesNotMatch digest => exact .behindVariant (by decide) ((readsIf_bytes id).map _)
  | unknownUpgradePolicy policy => exact .behindVariant (by decide) ((reads_u8 policy).always.map _)
  | packageIDDoesNotMatch package ticket =>
    rw [Wire.upgradeFault, List.append_assoc]
    exact .behindVariant (by decide) ((reads_address package).always.bind
      ((reads_address ticket).always.map _))

theorem spells_upgradeFault :
    upgradeFault.Spells fun fault bs => bs = Wire.upgradeFault fault ∧ fault.Short := by
  refine spells_variant.bind fun tag => ?_
  split
  case h_1 | h_2 => exact spells_address.map fun _ => ⟨rfl, trivial⟩
  case h_3 => exact .pure ⟨List.append_nil _, trivial⟩
  case h_4 => exact spells_bytes_lt.mapWith fun _ h => ⟨rfl, h⟩
  case h_5 => exact spells_u8.map fun _ => ⟨rfl, trivial⟩
  case h_6 =>
    exact spells_address.bind fun _ => spells_address.map fun _ =>
      ⟨(List.append_assoc _ _ _).symm, trivial⟩
  case h_7 => exact .fail _

/-! ### Reasons -/

theorem readsIf_executionFailure (error : ExecutionFailure) :
    executionFailure.ReadsIf error.Short (Wire.executionFailure error) error := by
  cases error
  case moveObjectTooBig size maximum | movePackageTooBig size maximum |
      effectsTooLarge size maximum | writtenObjectsTooLarge size maximum |
      moveVectorElemTooBig size maximum | moveRawValueTooBig size maximum =>
    rw [Wire.executionFailure, List.append_assoc]
    exact .behindVariant (by decide) ((reads_u64 size).always.bind ((reads_u64 maximum).always.map _))
  case circularObjectOwnership object =>
    exact .behindVariant (by decide) ((reads_address object).always.map _)
  case movePrimitiveRuntimeError location =>
    exact .behindVariant (by decide) ((readsIf_option fun l hl =>
      (readsIf_codeLocation l).mono fun h => h l hl).map _)
  case moveAbort location code =>
    rw [Wire.executionFailure, List.append_assoc]
    exact .behindVariant (by decide) ((readsIf_codeLocation location).bind
      ((reads_u64 code).always.map _))
  case commandArgumentError index fault =>
    rw [Wire.executionFailure, List.append_assoc]
    exact .behindVariant (by decide) ((reads_u16 index).always.bind
      ((reads_argumentFault fault).always.map _))
  case typeArgumentError index fault =>
    rw [Wire.executionFailure, List.append_assoc]
    exact .behindVariant (by decide) ((reads_u16 index).always.bind
      ((reads_typeArgumentFault fault).always.map _))
  case unusedValueWithoutDrop result secondary =>
    rw [Wire.executionFailure, List.append_assoc]
    exact .behindVariant (by decide) ((reads_u16 result).always.bind
      ((reads_u16 secondary).always.map _))
  case invalidPublicFunctionReturnType index =>
    exact .behindVariant (by decide) ((reads_u16 index).always.map _)
  case packageUpgradeError fault =>
    exact .behindVariant (by decide) ((readsIf_upgradeFault fault).map _)
  case executionCancelledDueToSharedObjectCongestion objects =>
    exact .behindVariant (by decide)
      ((readsIf_seq id address_ne_nil fun a _ => (reads_address a).always).map _)
  case addressDeniedForCoin account coinType =>
    rw [Wire.executionFailure, List.append_assoc]
    exact .behindVariant (by decide) ((reads_address account).always.bind ((readsIf_string id).map _))
  case coinTypeGlobalPause coinType =>
    exact .behindVariant (by decide) ((readsIf_string id).map _)
  all_goals exact Reads.always (Reads.variantAlone (by decide) (Reads.pure _))

theorem spells_executionFailure :
    executionFailure.Spells fun error bs => bs = Wire.executionFailure error ∧ error.Short := by
  refine spells_variant.bind fun tag => ?_
  split
  -- two sizes
  case h_5 | h_6 | h_25 | h_29 | h_38 | h_39 =>
    exact spells_u64.bind fun _ => spells_u64.map fun _ => ⟨(List.append_assoc _ _ _).symm, trivial⟩
  case h_7 => exact spells_address.map fun _ => ⟨rfl, trivial⟩
  -- locations in code
  case h_12 => exact (spells_optionWith spells_codeLocation).mapWith fun _ h => ⟨rfl, h⟩
  case h_13 =>
    exact spells_codeLocation.bindWith fun _ h => spells_u64.map fun _ =>
      ⟨(List.append_assoc _ _ _).symm, h⟩
  -- arguments, type arguments and results by index
  case h_20 =>
    exact spells_u16.bind fun _ => spells_argumentFault.map fun _ =>
      ⟨(List.append_assoc _ _ _).symm, trivial⟩
  case h_21 =>
    exact spells_u16.bind fun _ => spells_typeArgumentFault.map fun _ =>
      ⟨(List.append_assoc _ _ _).symm, trivial⟩
  case h_22 =>
    exact spells_u16.bind fun _ => spells_u16.map fun _ => ⟨(List.append_assoc _ _ _).symm, trivial⟩
  case h_23 => exact spells_u16.map fun _ => ⟨rfl, trivial⟩
  case h_28 => exact spells_upgradeFault.mapWith fun _ h => ⟨rfl, h⟩
  case h_34 => exact (spells_seq_write_lt spells_address).mapWith fun _ h => ⟨rfl, h⟩
  -- coin types
  case h_35 =>
    exact spells_address.bind fun _ => spells_string_lt.mapWith fun _ h =>
      ⟨(List.append_assoc _ _ _).symm, h⟩
  case h_36 => exact spells_string_lt.mapWith fun _ h => ⟨rfl, h⟩
  case h_41 => exact .fail _
  all_goals exact .pure ⟨List.append_nil _, trivial⟩

end Wire.Reader

end ObjectLedger
