import ObjectLedger.Transaction.BuildError

/-!
# Validity

A transaction is valid when every argument names an input that exists or an earlier command, and when
inputs and commands can be numbered in sixteen bits. It is complete when nothing is open either.
-/

namespace ObjectLedger

/-- Inputs or commands that can be numbered. -/
def maxEntries : Nat := UInt16.size

/-- Checks an argument of the command at an index. -/
def Argument.check (command : Nat) (inputCount : Nat) (a : Argument) : Except BuildError Unit :=
  match a with
  | .feeObject => .ok ()
  | .input index =>
    if index.toNat < inputCount then .ok ()
    else .error (.invalidReference command (.inputOutOfBounds index inputCount))
  | .result index | .nestedResult index _ =>
    if index.toNat < command then .ok () else .error (.invalidReference command (.notPrior a))

def Argument.checkAll (command : Nat) (inputCount : Nat) : List Argument → Except BuildError Unit
  | [] => .ok ()
  | a :: rest =>
    match a.check command inputCount with
    | .ok () => checkAll command inputCount rest
    | .error e => .error e

/-- Checks commands in order; the first one has an index. -/
def Command.checkAll (inputCount : Nat) : Nat → List Command → Except BuildError Unit
  | _, [] => .ok ()
  | index, c :: rest =>
    match Argument.checkAll index inputCount c.arguments with
    | .ok () => checkAll inputCount (index + 1) rest
    | .error e => .error e

/-- What is open in a command. -/
def Command.openPart? : Command → Option BuildError
  | .intent i => some (.incomplete (.intent i.name))
  | .moveCall call =>
    match call.package with
    | .named name => some (.unresolvedName name)
    | .address _ => (call.typeArguments.find? (·.contains '@')).map .unresolvedName
  | .makeMoveVec (some t) _ => if t.contains '@' then some (.unresolvedName t) else none
  | _ => none

def Input.firstOpen? : Nat → List Input → Option BuildError
  | _, [] => none
  | index, .unresolved u :: _ => some (.incomplete (.input index u.objectId))
  | index, _ :: rest => firstOpen? (index + 1) rest

namespace Transaction

def validate (tx : Transaction) : Except BuildError Unit :=
  if maxEntries < tx.inputs.length then .error (.tooMany "inputs")
  else if maxEntries < tx.commands.length then .error (.tooMany "commands")
  else Command.checkAll tx.inputs.length 0 tx.commands

/-- Checks validity, and that inputs and commands are ready for the wire. -/
def validateResolved (tx : Transaction) : Except BuildError Unit :=
  match tx.validate with
  | .error e => .error e
  | .ok () =>
    match Input.firstOpen? 0 tx.inputs with
    | some e => .error e
    | none =>
      match tx.commands.findSome? Command.openPart? with
      | some e => .error e
      | none => .ok ()

/-- A transaction that is valid, as it is. -/
def ofValid (tx : Transaction) : Except BuildError Transaction :=
  tx.validate.map fun _ => tx

end Transaction

end ObjectLedger
