import ObjectLedger.Effects.Failure
import ObjectLedger.Proofs.Json.Sorting

/-!
# Failures told apart by their texts

A failure is read back from its JSON form, also when the fields of the form are sorted. Its text is a name,
or a name with details in parentheses, which are such a form as compact JSON. No name has a parenthesis in
it, so the text shows where the name ends, and a name without details names one failure.
-/

namespace ObjectLedger

open Json

/-! ### JSON forms read back -/

instance : Faithful ModuleId where
  exact_toJson m := .object (by simp [exact_toJson])
  ofJson?_sorted m := (record?_sorted _ _).trans (read_two ModuleId.mk (by simp) m.address m.name)

instance : Faithful (Option String) := faithful_option fun _ h => by cases h

instance : Faithful CodeLocation where
  exact_toJson l := .object (by simp [exact_toJson])
  ofJson?_sorted l := by
    have hnodup : ([("module", toJson l.module), ("function", toJson l.function),
        ("instruction", toJson l.instruction), ("functionName", toJson l.functionName)].map
        Prod.fst).Nodup := by simp
    refine (record?_sorted _ _).trans ?_
    rw [bind_required hnodup l.module (by simp), bind_required hnodup l.function (by simp),
      bind_required hnodup l.instruction (by simp), bind_optional hnodup l.functionName (by simp)]
    rfl

instance : Faithful (Option CodeLocation) := faithful_option fun _ h => by cases h

namespace ArgumentFault

instance : Faithful ArgumentFault where
  exact_toJson fault := by
    cases fault <;>
      first | exact .text _ | exact exact_tagged (.object (by simp [exact_toJson])) _
  ofJson?_sorted fault := by
    cases fault with
    | indexOutOfBounds index => exact ofJson?_one indexOutOfBounds (fun _ => rfl) index
    | secondaryIndexOutOfBounds result secondary =>
      exact ofJson?_two secondaryIndexOutOfBounds (by simp) (fun _ => rfl) result secondary
    | invalidResultArity result => exact ofJson?_one invalidResultArity (fun _ => rfl) result
    | _ => rfl

end ArgumentFault

instance : Faithful TypeArgumentFault where
  exact_toJson fault := by cases fault <;> exact .text _
  ofJson?_sorted fault := by cases fault <;> rfl

namespace UpgradeFault

instance : Faithful UpgradeFault where
  exact_toJson fault := by
    cases fault <;>
      first | exact .text _ | exact exact_tagged (.object (by simp [exact_toJson])) _
  ofJson?_sorted fault := by
    cases fault with
    | unableToFetchPackage package =>
      exact ofJson?_one unableToFetchPackage (fun _ => rfl) package
    | notAPackage object => exact ofJson?_one notAPackage (fun _ => rfl) object
    | incompatibleUpgrade => rfl
    | digestDoesNotMatch digest => exact ofJson?_one digestDoesNotMatch (fun _ => rfl) digest
    | unknownUpgradePolicy policy => exact ofJson?_one unknownUpgradePolicy (fun _ => rfl) policy
    | packageIDDoesNotMatch package ticket =>
      exact ofJson?_two packageIDDoesNotMatch (by simp) (fun _ => rfl) package ticket

end UpgradeFault

namespace ExecutionFailure

instance : Faithful ExecutionFailure where
  exact_toJson f := by
    cases f with
    | movePrimitiveRuntimeError location => exact exact_tagged (exact_toJson location) _
    | moveAbort location code => exact exact_tagged (exact_toJson (location, code)) _
    | _ => first | exact .text _ | exact exact_tagged (.object (by simp [exact_toJson])) _
  ofJson?_sorted f := by
    cases f with
    | moveObjectTooBig size maximum =>
      exact ofJson?_two moveObjectTooBig (by simp) (fun _ => rfl) size maximum
    | movePackageTooBig size maximum =>
      exact ofJson?_two movePackageTooBig (by simp) (fun _ => rfl) size maximum
    | circularObjectOwnership object => exact ofJson?_one circularObjectOwnership (fun _ => rfl) object
    | movePrimitiveRuntimeError location =>
      exact ofJson?_single movePrimitiveRuntimeError (fun _ => rfl) location
    | moveAbort location code =>
      exact ofJson?_single (fun p : CodeLocation × UInt64 => moveAbort p.1 p.2) (fun _ => rfl)
        (location, code)
    | commandArgumentError index fault =>
      exact ofJson?_two commandArgumentError (by simp) (fun _ => rfl) index fault
    | typeArgumentError index fault =>
      exact ofJson?_two typeArgumentError (by simp) (fun _ => rfl) index fault
    | unusedValueWithoutDrop result secondary =>
      exact ofJson?_two unusedValueWithoutDrop (by simp) (fun _ => rfl) result secondary
    | invalidPublicFunctionReturnType index =>
      exact ofJson?_one invalidPublicFunctionReturnType (fun _ => rfl) index
    | effectsTooLarge size maximum =>
      exact ofJson?_two effectsTooLarge (by simp) (fun _ => rfl) size maximum
    | packageUpgradeError fault => exact ofJson?_one packageUpgradeError (fun _ => rfl) fault
    | writtenObjectsTooLarge size maximum =>
      exact ofJson?_two writtenObjectsTooLarge (by simp) (fun _ => rfl) size maximum
    | executionCancelledDueToSharedObjectCongestion objects =>
      exact ofJson?_one executionCancelledDueToSharedObjectCongestion (fun _ => rfl) objects
    | addressDeniedForCoin account coinType =>
      exact ofJson?_two addressDeniedForCoin (by simp) (fun _ => rfl) account coinType
    | coinTypeGlobalPause coinType => exact ofJson?_one coinTypeGlobalPause (fun _ => rfl) coinType
    | moveVectorElemTooBig size maximum =>
      exact ofJson?_two moveVectorElemTooBig (by simp) (fun _ => rfl) size maximum
    | moveRawValueTooBig size maximum =>
      exact ofJson?_two moveRawValueTooBig (by simp) (fun _ => rfl) size maximum
    | _ => rfl

/-! ### The text -/

def ofName? (name : String) : Option ExecutionFailure :=
  (ofJson? (.text name)).or (ofJson? (tagged name .null))

theorem form_cases (f : ExecutionFailure) :
    ∃ name : String, '(' ∉ name.toList ∧
      (ofName? name = some f ∧ (toJson f = .text name ∨ toJson f = tagged name .null) ∨
        ∃ payload, payload ≠ .null ∧ toJson f = tagged name payload) := by
  cases f with
  | movePrimitiveRuntimeError location =>
    cases location with
    | none => exact ⟨_, by decide, .inl ⟨rfl, .inr rfl⟩⟩
    | some location =>
      refine ⟨_, ?_, .inr ⟨_, ?_, rfl⟩⟩
      · decide
      · nofun
  | _ =>
    first
    | exact ⟨_, by decide, .inl ⟨rfl, .inl rfl⟩⟩
    | refine ⟨_, ?_, .inr ⟨_, ?_, rfl⟩⟩
      · decide
      · nofun

theorem sorted_ne_null {j : Json} (h : j ≠ .null) : j.sorted ≠ .null := by
  cases j
  case null => exact absurd rfl h
  all_goals nofun

theorem render_cases (f : ExecutionFailure) :
    ∃ name : String, '(' ∉ name.toList ∧
      (ofName? name = some f ∧ f.render.toList = name.toList ∨
        ∃ payload : Json, payload.Exact ∧ ofJson? (tagged name payload) = some f ∧
          f.render.toList = name.toList ++ '(' :: (payload.compact ++ [')'])) := by
  obtain ⟨name, hname, ⟨hf, hform | hform⟩ | ⟨payload, hpayload, hform⟩⟩ := f.form_cases
  · refine ⟨name, hname, .inl ⟨hf, ?_⟩⟩
    rw [render, hform]
    rfl
  · refine ⟨name, hname, .inl ⟨hf, ?_⟩⟩
    rw [render, hform]
    rfl
  · have hexact : (tagged name payload).Exact := hform ▸ exact_toJson f
    have hread : ofJson? (tagged name payload.sorted) = some f := by
      rw [← ofJson?_sorted f, hform]
      rfl
    refine ⟨name, hname, .inr ⟨payload.sorted, hexact.payload.sorted, hread, ?_⟩⟩
    have hrender : f.render = name ++ "(" ++ payload.sorted.compactText ++ ")" := by
      rw [render, hform]
      exact if_neg (sorted_ne_null hpayload)
    rw [hrender]
    simp [compactText]

/-- **Failures are told apart by their texts.** -/
theorem render_inj (f g : ExecutionFailure) : f.render = g.render ↔ f = g := by
  refine ⟨fun h => ?_, congrArg render⟩
  obtain ⟨name, hname, hf⟩ := f.render_cases
  obtain ⟨name', hname', hg⟩ := g.render_cases
  rcases hf with ⟨hf, htext⟩ | ⟨payload, hexact, hf, htext⟩ <;>
    rcases hg with ⟨hg, htext'⟩ | ⟨payload', hexact', hg, htext'⟩ <;>
    rw [h, htext'] at htext
  case inl.inl =>
    obtain rfl := String.toList_inj.mp htext
    exact Option.some.inj (hf.symm.trans hg)
  case inl.inr =>
    exact absurd (htext ▸ List.mem_append_right _ List.mem_cons_self) hname
  case inr.inl =>
    exact absurd (htext.symm ▸ List.mem_append_right _ List.mem_cons_self) hname'
  case inr.inr =>
    -- The names end at the first parenthesis, and the details where a parenthesis follows.
    have hplain {name : String} (hname : '(' ∉ name.toList) : ∀ c ∈ name.toList, (c != '(') = true :=
      fun c hc => bne_iff_ne.mpr fun heq => hname (heq ▸ hc)
    obtain ⟨hnames, hdetails⟩ := List.append_inj_of_head? (hplain hname) (hplain hname') (by simp)
      (by simp) htext.symm
    obtain rfl := String.toList_inj.mp hnames
    obtain ⟨rfl, -⟩ := toldApart_compact hexact hexact' (noDigit_cons rfl) (noDigit_cons rfl)
      (List.cons.inj hdetails).2
    exact Option.some.inj (hf.symm.trans hg)

example : (movePrimitiveRuntimeError none).render = "MovePrimitiveRuntimeError" := rfl

example : (coinTypeGlobalPause "(\"").render = "CoinTypeGlobalPause(\x7b\"coinType\":\"(\\\"\"\x7d)" := by
  decide

end ExecutionFailure

end ObjectLedger
