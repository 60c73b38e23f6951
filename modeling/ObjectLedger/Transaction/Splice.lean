import ObjectLedger.Transaction.Inputs
import ObjectLedger.Transaction.Validity

/-!
# Splicing commands

Putting the commands of one transaction among those of another, and replacing a command by others. In
both cases every reference goes on naming what it named before, at its new index.
-/

namespace ObjectLedger

/-- Sum of two command indices, at most the greatest one. -/
def saturatingAdd (a b : UInt16) : UInt16 := UInt16.ofNat (min (a.toNat + b.toNat) 65535)

namespace Argument

/-- An argument of a spliced command: inputs take their new slots, results move up by the index of the
splice. -/
def relocate (slots : List UInt16) (start : UInt16) (position : Nat) :
    Argument → Except BuildError Argument
  | feeObject => .ok feeObject
  | input index =>
    match slots[index.toNat]? with
    | some slot => .ok (input slot)
    | none => .error (.invalidReference position (.mergedInput index))
  | result command => .ok (result (saturatingAdd start command))
  | nestedResult command index => .ok (nestedResult (saturatingAdd start command) index)

/-- An argument of a command behind a splice: results of commands from there on move up. -/
def shift (start amount : UInt16) : Argument → Argument
  | result command => if start ≤ command then result (command + amount) else result command
  | nestedResult command index =>
    if start ≤ command then nestedResult (command + amount) index else nestedResult command index
  | other => other

/-- An argument behind a replaced command: results of the command become the given one, results of
later commands move by the difference in length. -/
def redirect (index inserted : Nat) (result : Option Argument) (a : Argument) :
    Except BuildError Argument :=
  match a.command? with
  | none => .ok a
  | some command =>
    if command.toNat < index then .ok a
    else if index < command.toNat then
      let moved := UInt16.ofNat (command.toNat + inserted - 1)
      match a with
      | nestedResult _ j => .ok (nestedResult moved j)
      | _ => .ok (Argument.result moved)
    else
      match a, result with
      | Argument.result _, some target => .ok target
      | nestedResult _ j, some (Argument.result r) => .ok (nestedResult r j)
      | nestedResult _ _, some target => .error (.internal (.nestedResultOf target))
      | _, _ => .error (.danglingReference index)

end Argument

/-- An edit of a transaction in place. What it wrote before it failed stays written. -/
abbrev InPlace := EStateM BuildError Transaction

namespace InPlace

variable {α : Type}

/-- A step of an edit that writes nothing. -/
def ofExcept (x : Except BuildError α) : InPlace α := fun tx =>
  match x with
  | .ok a => .ok a tx
  | .error e => .error e tx

/-- Edits a copy, which takes the place of the transaction once it is valid. -/
def onCopy (edit : InPlace Unit) : InPlace Unit := do
  match edit.run (← get) with
  | .ok _ copy =>
    ofExcept copy.validate
    set copy
  | .error e _ => throw e

/-- The transaction after an edit, unless it fails. -/
def outcome (edit : InPlace α) (tx : Transaction) : Except BuildError Transaction :=
  match edit.run tx with
  | .ok _ tx => .ok tx
  | .error e _ => .error e

/-- The transaction after an edit, also after one that fails. -/
def leaves (edit : InPlace α) (tx : Transaction) : Transaction :=
  match edit.run tx with
  | .ok _ tx => tx
  | .error _ tx => tx

end InPlace

namespace Transaction

/-- The spliced commands from a position on, with their arguments relocated. -/
def relocateAll (slots : List UInt16) (start : UInt16) (commands : List Command) :
    Except BuildError (List Command) :=
  commands.zipIdx.mapM fun entry =>
    entry.1.mapArguments (Argument.relocate slots start entry.2)

/-- Puts the commands of another transaction in front of the command at an index, and its inputs among
the inputs. Sender, gas and expiration stay. -/
def mergeInPlace (index : Nat) (other : Transaction) : InPlace Unit := do
  let length := (← get).commands.length
  if length < index then throw (.indexOutOfRange index length)
  else if other.commands.isEmpty then return
  else
    let spliced := other.commands.length
    if maxEntries < length + spliced then throw (.tooMany "commands")
    else
      let start := UInt16.ofNat index
      InPlace.onCopy do
        let (slots, inputs) ← InPlace.ofExcept (Input.insertAll (← get).inputs [] other.inputs)
        modify fun copy => { copy with inputs }
        let incoming ← InPlace.ofExcept (relocateAll slots start other.commands)
        modify fun copy =>
          let tail := (copy.commands.drop index).map (Command.map (.shift start (UInt16.ofNat spliced)))
          { copy with commands := copy.commands.take index ++ incoming ++ tail }

/-- Replaces the command at an index by others, which are written with their final indices, and its
result by an argument. -/
def replaceInPlace (index : Nat) (replacement : List Command) (result : Option Argument) :
    InPlace Unit := do
  let length := (← get).commands.length
  if length ≤ index then throw (.indexOutOfRange index length)
  else
    let inserted := replacement.length
    if maxEntries < length - 1 + inserted then throw (.tooMany "commands")
    else
      InPlace.onCopy do
        let tail := (← get).commands.drop (index + 1)
        modify fun copy => { copy with commands := copy.commands.take index ++ replacement }
        let tail ← InPlace.ofExcept (tail.mapM fun c =>
          c.mapArguments (Argument.redirect index inserted result))
        modify fun copy => { copy with commands := copy.commands ++ tail }

def merge (tx : Transaction) (index : Nat) (other : Transaction) : Except BuildError Transaction :=
  (mergeInPlace index other).outcome tx

def replaceCommand (tx : Transaction) (index : Nat) (replacement : List Command)
    (result : Option Argument) : Except BuildError Transaction :=
  (replaceInPlace index replacement result).outcome tx

end Transaction

end ObjectLedger
