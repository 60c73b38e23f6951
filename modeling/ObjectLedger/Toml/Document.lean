import ObjectLedger.Toml.Basic

/-!
# TOML documents

A document is a list of statements: headers that open a table or a new row of an array of tables, and
fields that go into what was opened last. Each table is opened by one header at most, and the tables
that dotted names imply are extended by dotted names only.
-/

namespace ObjectLedger.Toml

/-- A line of a document that says something. -/
inductive Statement where
  /-- A header in brackets. -/
  | table (path : List String)
  /-- A header in double brackets. -/
  | row (path : List String)
  /-- A name, which may be dotted, and its value. -/
  | field (path : List String) (name : String) (value : Toml)

/-- A part of a document under construction. -/
inductive Node where
  | value (value : Toml)
  /-- A table: whether no header has opened it, and whether dotted names made it. -/
  | table (implied dotted : Bool) (entries : List (String × Node))
  /-- The rows of an array of tables, the last one first. -/
  | rows (rows : List (List (String × Node)))

/-- Names with their parts. -/
abbrev Entries := List (String × Node)

namespace Entries

/-- The entries with another part for a name, in its place if it is there. -/
def put (name : String) (node : Node) : Entries → Entries
  | [] => [(name, node)]
  | (k, n) :: rest => if k = name then (k, node) :: rest else (k, n) :: put name node rest

/-- Changes the table at a path, making the tables on the way; `byName` says that the path is a dotted
name, and then a table that a header opened is not entered. The change is told whether dotted names
made the table. -/
def update (byName : Bool) (change : Bool → Entries → Option Entries) :
    List String → Bool → Entries → Option Entries
  | [], dotted, es => change dotted es
  | name :: path, _, es =>
    match es.lookup name with
    | none => (update byName change path byName []).map fun sub =>
        put name (.table true byName sub) es
    | some (.value _) | some (.rows []) => none
    | some (.rows (last :: before)) => (update byName change path false last).map fun last =>
        put name (.rows (last :: before)) es
    | some (.table implied dotted sub) =>
      if byName && !implied then none
      else (update byName change path dotted sub).map fun sub =>
        put name (.table implied dotted sub) es

/-- Adds a value under a name that is new; a dotted name adds only to tables of its own kind. -/
def addField (isDotted : Bool) (name : String) (value : Toml) (dotted : Bool) (es : Entries) :
    Option Entries :=
  if dotted = isDotted ∧ (es.lookup name).isNone then some (put name (.value value) es) else none

/-- Adds a field, whose name may be dotted, to a table that no dotted name made. -/
def insert (path : List String) (name : String) (value : Toml) (es : Entries) : Option Entries :=
  update true (addField (!path.isEmpty) name value) path false es

/-- Opens a table that no header has opened before. -/
def openTable (name : String) (_ : Bool) (es : Entries) : Option Entries :=
  match es.lookup name with
  | none => some (put name (.table false false []) es)
  | some (.table true false sub) => some (put name (.table false false sub) es)
  | _ => none

def addRow (name : String) (_ : Bool) (es : Entries) : Option Entries :=
  match es.lookup name with
  | none => some (put name (.rows [[]]) es)
  | some (.rows rows) => some (put name (.rows ([] :: rows)) es)
  | _ => none

end Entries

/-- A document under construction and the path of what was opened last. -/
structure Draft where
  root : Entries := []
  path : List String := []

/-- The draft after a statement. -/
def Draft.add (d : Draft) : Statement → Option Draft
  | .table path => do
    let name ← path.getLast?
    let root ← Entries.update false (Entries.openTable name) path.dropLast false d.root
    return ⟨root, path⟩
  | .row path => do
    let name ← path.getLast?
    let root ← Entries.update false (Entries.addRow name) path.dropLast false d.root
    return ⟨root, path⟩
  | .field path name value => do
    let root ← Entries.update false (fun _ es => Entries.insert path name value es) d.path false d.root
    return { d with root }

namespace Node

mutual

def toToml : Node → Toml
  | value v => v
  | table _ _ entries => .table (fieldsOf entries)
  | rows rs => .array (rowsOf rs).reverse

def fieldsOf : List (String × Node) → List (String × Toml)
  | [] => []
  | (k, n) :: rest => (k, toToml n) :: fieldsOf rest

/-- The rows of a finished array of tables, in the order of the draft. -/
def rowsOf : List (List (String × Node)) → List Toml
  | [] => []
  | r :: rest => .table (fieldsOf r) :: rowsOf rest

end

end Node

/-- The fields of a table from names and values in order. -/
def fieldsOf? (fields : List (List String × String × Toml)) : Option (List (String × Toml)) :=
  (fields.foldlM (fun es f => Entries.insert f.1 f.2.1 f.2.2 es) []).map Node.fieldsOf

def ofStatements? (statements : List Statement) : Option Toml :=
  (statements.foldlM Draft.add {}).map fun d => .table (Node.fieldsOf d.root)

end ObjectLedger.Toml
