import Overlay.Schema.Reference
import Overlay.Schema.Validity
import Overlay.SchemaText.Statement
import Overlay.Text.Line

/-!
# Reading a schema text

`Schema.read` reads a schema from its text. The lines are taken in order (`Draft.step`); what has
been read so far is a `Draft`. At the end the draft becomes a schema (`Draft.finish`) whose
references are then resolved and whose keys are checked.
-/

namespace Overlay.SchemaText

open Overlay.Text

/-- A table whose closing brace has not been read. -/
structure OpenTable where
  /-- The line of its head. -/
  line : Nat
  name : String
  columns : List Column
  foreignKeys : List ForeignKey
  /-- The columns marked as primary key, in order. -/
  inlineKey : List String
  /-- The columns of its primary key line, if there was one. -/
  clauseKey : Option (List String)
  deriving DecidableEq, Repr

namespace OpenTable

/-- A table of which only the head has been read. -/
def start (line : Nat) (name : String) : OpenTable :=
  { line, name, columns := [], foreignKeys := [], inlineKey := [], clauseKey := none }

/-- Takes in a constraint of a column, which is given as it is so far. -/
def constrain (t : OpenTable) (column : Column) : Constraint → OpenTable × Column
  | .primaryKey =>
    ({ t with inlineKey := t.inlineKey ++ [column.name] }, { column with nullable := false })
  | .notNull => (t, { column with nullable := false })
  | .nullable => (t, { column with nullable := true })
  | .references target targetColumns =>
    let fk : ForeignKey := { columns := [column.name], target, targetColumns }
    ({ t with foreignKeys := t.foreignKeys ++ [fk] }, column)

/-- Takes in a column; its constraints hold in the order in which they stand. -/
def addColumn (t : OpenTable) (column : Column) (constraints : List Constraint) : OpenTable :=
  let (t, column) := constraints.foldl (fun (t, column) c => t.constrain column c) (t, column)
  { t with columns := t.columns ++ [column] }

/-- Takes in a line inside the table. -/
def addLine (t : OpenTable) : BodyLine → Except TextFault OpenTable
  | .primaryKey columns =>
    if t.clauseKey.isSome then .error .primaryKeyTwice
    else .ok { t with clauseKey := some columns }
  | .foreignKey columns target targetColumns =>
    let fk : ForeignKey := { columns, target, targetColumns }
    .ok { t with foreignKeys := t.foreignKeys ++ [fk] }
  | .column name typeWord constraints =>
    match ColumnType.ofWord? typeWord with
    | none => .error (.unknownType typeWord)
    | some type => .ok (t.addColumn { name, type, nullable := true } constraints)

/-- The finished table. Its primary key is given by marked columns or by a line, not by both. -/
def close (t : OpenTable) : Except Error Table :=
  let table (primaryKey : Option (List String)) : Table :=
    { name := t.name, columns := t.columns, primaryKey, foreignKeys := t.foreignKeys }
  match t.inlineKey, t.clauseKey with
  | [], clauseKey => .ok (table clauseKey)
  | inlineKey, none => .ok (table (some inlineKey))
  | _, some _ => .error (.text t.line (.inlineAndClauseKey t.name))

end OpenTable

/-- What has been read of a schema text. -/
structure Draft where
  name : Option String
  tables : List Table
  current : Option OpenTable
  deriving DecidableEq, Repr

namespace Draft

/-- The draft before the first line. -/
def empty : Draft :=
  { name := none, tables := [], current := none }

/-- Takes in a line outside any table. -/
def topLine (d : Draft) (n : Nat) (line : List Char) : Except Error Draft :=
  match schemaHead? line with
  | some name =>
    if d.name.isSome then .error (.text n .schemaTwice) else .ok { d with name := some name }
  | none =>
    match tableHead? line with
    | some table =>
      if d.name.isNone then .error (.text n .tableBeforeSchema)
      else .ok { d with current := some (.start n table) }
    | none => .error (.text n (.unknownStatement (String.ofList line)))

/-- Takes in a line inside the table `t` that does not close it. -/
def innerLine (d : Draft) (t : OpenTable) (n : Nat) (line : List Char) : Except Error Draft :=
  match bodyLine? line with
  | none => .error (.text n (.invalidBodyLine (String.ofList line)))
  | some body =>
    match t.addLine body with
    | .ok t => .ok { d with current := some t }
    | .error fault => .error (.text n fault)

/-- Takes in the closing brace of the table `t`. -/
def closeTable (d : Draft) (t : OpenTable) (n : Nat) : Except Error Draft := do
  let table ← t.close
  if d.tables.any fun other => sameName other.name table.name then
    .error (.text n (.duplicateTable table.name))
  else .ok { d with tables := d.tables ++ [table], current := none }

/-- Takes in a line and its number. -/
def step (d : Draft) : Nat × List Char → Except Error Draft
  | (n, line) =>
    match d.current with
    | none => d.topLine n line
    | some t => if line = ['}'] then d.closeTable t n else d.innerLine t n line

/-- The schema that a draft describes when no line follows. -/
def finish (d : Draft) : Except Error Schema :=
  match d.current, d.name with
  | some t, _ => .error (.text t.line (.unclosedTable t.name))
  | none, none => .error (.text 1 .noSchema)
  | none, some name => .ok { name, tables := d.tables }

end Draft

/-- The schema as the lines of a text declare it: references are not resolved and keys are not
checked. -/
def declared (text : List Char) : Except Error Schema := do
  let draft ← (contentLines text).foldlM Draft.step Draft.empty
  draft.finish

end Overlay.SchemaText

namespace Overlay

/-- The schema that a text describes, with its references resolved and its keys checked. -/
def Schema.read (text : String) : Except Error Schema := do
  let declared ← SchemaText.declared text.toList
  let schema ← declared.resolve
  schema.validate
  .ok schema

end Overlay
