import ObjectLedger.Proofs.Prelude
import ObjectLedger.Transaction.Encode

/-!
# When a transaction is encoded

The cases in which encoding succeeds, with the bytes it gives. Only types, packages, open inputs and
intents can make a command or an input fail, and only a field that is not set the rest.
-/

namespace ObjectLedger

/-- The types of a command, as they are spelled. -/
def Command.typeTexts : Command → List String
  | moveCall call => call.typeArguments
  | makeMoveVec elementType _ => elementType.toList
  | _ => []

namespace Wire

theorem parsedType_eq_ok {text : String} {t : TypeTag} :
    parsedType text = .ok t ↔ text.contains '@' = false ∧ TypeTag.parse text = .ok t := by
  rw [parsedType]
  split
  · rename_i h
    simp [h]
  · rename_i h
    simp [h, Except.mapError_eq_ok]

theorem command_moveCall_eq_ok {call : MoveCall} {bs : Bytes} :
    command (.moveCall call) = .ok bs ↔
      ∃ package types, call.package = .address package ∧
        call.typeArguments.mapM parsedType = .ok types ∧
        bs = variant 0 ++ (address package ++ (string call.module ++ (string call.function ++
          (seq typeTag types ++ seq argument call.arguments)))) := by
  obtain ⟨package, module, function, texts, arguments⟩ := call
  cases package with
  | named name =>
    constructor
    · intro h
      cases h
    · rintro ⟨_, _, h, -⟩
      cases h
  | address package =>
    show (texts.mapM parsedType >>= fun types => pure (variant 0 ++ address package ++ string module ++
      string function ++ seq typeTag types ++ seq argument arguments)) = .ok bs ↔ _
    simp only [Except.bind_eq_ok, Except.pure_eq_ok, List.append_assoc]
    constructor
    · rintro ⟨types, htypes, rfl⟩
      exact ⟨package, types, rfl, htypes, rfl⟩
    · rintro ⟨_, types, h, htypes, rfl⟩
      cases h
      exact ⟨types, htypes, rfl⟩

theorem command_makeMoveVec_eq_ok {elementType : Option String} {elements : List Argument}
    {bs : Bytes} :
    command (.makeMoveVec elementType elements) = .ok bs ↔
      ∃ type, elementType.mapM parsedType = .ok type ∧
        bs = variant 5 ++ (option typeTag type ++ seq argument elements) := by
  show (elementType.mapM parsedType >>= fun type =>
    pure (variant 5 ++ option typeTag type ++ seq argument elements)) = .ok bs ↔ _
  simp only [Except.bind_eq_ok, Except.pure_eq_ok, List.append_assoc, @eq_comm _ _ bs]

end Wire

namespace Transaction

open Wire

theorem needed_eq_ok {α : Type} {field : String} {x : Option α} {a : α} :
    needed field x = .ok a ↔ x = some a := by
  cases x <;> simp [needed]

theorem encodeKind_eq_ok {tx : Transaction} {bs : Bytes} :
    tx.encodeKind = .ok bs ↔
      ∃ inputs commands, List.Forall₂ (fun entry piece => input entry.2 entry.1 = .ok piece)
          tx.inputs.zipIdx inputs ∧
        List.Forall₂ (fun c piece => command c = .ok piece) tx.commands commands ∧
        bs = variant 0 ++ (length inputs.length ++ inputs.flatten ++
          (length commands.length ++ commands.flatten)) := by
  simp only [encodeKind, Except.bind_eq_ok, Except.pure_eq_ok, Except.mapM_eq_ok]
  constructor
  · rintro ⟨inputs, hinputs, commands, hcommands, rfl⟩
    refine ⟨inputs, commands, hinputs, hcommands, ?_⟩
    rw [← hinputs.length_eq, ← hcommands.length_eq, List.length_zipIdx]
    simp only [List.append_assoc]
  · rintro ⟨inputs, commands, hinputs, hcommands, rfl⟩
    refine ⟨inputs, hinputs, commands, hcommands, ?_⟩
    rw [← hinputs.length_eq, ← hcommands.length_eq, List.length_zipIdx]
    simp only [List.append_assoc]

theorem encode_eq_ok {tx : Transaction} {bs : Bytes} :
    tx.encode = .ok bs ↔
      ∃ sender owner payment price budget kind, tx.sender = some sender ∧
        tx.gas = ⟨some payment, some owner, some price, some budget⟩ ∧ tx.encodeKind = .ok kind ∧
        bs = variant 0 ++ (kind ++ (address sender ++ (seq objectRef payment ++ (address owner ++
          (u64 price ++ (u64 budget ++ expirationTag tx.expiration)))))) := by
  obtain ⟨sender, expiration, ⟨payment, owner, price, budget⟩, inputs, commands⟩ := tx
  simp only [encode, Except.bind_eq_ok, Except.pure_eq_ok, needed_eq_ok, List.append_assoc,
    GasData.mk.injEq]
  constructor
  · rintro ⟨s, hs, o, ho, p, hp, r, hr, b, hb, kind, hkind, rfl⟩
    exact ⟨s, o, p, r, b, kind, hs, ⟨hp, ho, hr, hb⟩, hkind, rfl⟩
  · rintro ⟨s, o, p, r, b, kind, hs, ⟨hp, ho, hr, hb⟩, hkind, rfl⟩
    exact ⟨s, hs, o, ho, p, hp, r, hr, b, hb, kind, hkind, rfl⟩

end Transaction

end ObjectLedger
