import Overlay.Config.Basic
import Overlay.Plan.Basic
import Overlay.Schema.Validity

/-!
# Layers

The layer of a table is the view that stands in for it, with its plan, and the shadow table that
takes its writes. Building the layer of a table requires a primary key and valid keys in the table
and in every table that refers to it.
-/

namespace Overlay

/-- What is generated for a table. The plan is of type `π`: a `Plan`, or a `PlanText` when only
its texts are known. -/
structure Layer (π : Type) where
  /-- The schema of the view. -/
  schema : String
  name : String
  columns : List Column
  primaryKey : List String
  plan : π
  redirectedSchema : String
  shadow : Table
  deriving DecidableEq, Repr

/-- The layer with its plan in writing. -/
def Layer.written (layer : Layer Plan) : Layer PlanText :=
  { layer with plan := layer.plan.text }

/-- The status column of a shadow table. -/
def statusColumnDef : Column :=
  { name := statusColumn, type := .integer, nullable := false }

/-- A column as it stands in a shadow table: the columns of the key are not nullable. -/
def Column.shadow (key : List String) (c : Column) : Column :=
  if keyNames key c.name then { c with nullable := false } else c

/-- The shadow table of a table: its columns, the status, and the same key. -/
def Table.shadow (t : Table) (key : List String) : Table :=
  { name := shadowName t.name
    columns := t.columns.map (Column.shadow key) ++ [statusColumnDef]
    primaryKey := some key
    foreignKeys := [] }

/-- A table that refers to another by the foreign key `fk`. Its rows are looked up in its view if it
has one, so that deleted rows do not count, and in the table itself otherwise. -/
def Dependent.of (source views : String) (owner : Table) (fk : ForeignKey) : Dependent :=
  { table := owner.name
    relation :=
      { schema := if owner.rowKey?.isSome then views else source
        name := owner.name }
    pairs := fk.columns.zip fk.targetColumns }

/-- The redirection of a table of `s`. -/
def Table.redirection (config : Config) (s : Schema) (t : Table) (key : List String) :
    Redirection :=
  { columns := t.columnNames
    key
    base := { schema := s.name, name := t.name }
    shadow := { schema := config.redirectedSchema, name := shadowName t.name }
    dependents := (s.referencing t.name).map fun (owner, fk) =>
      .of s.name config.baseAlias owner fk }

/-- The layer of a table of `s` whose rows are told apart by `key`. -/
def Table.layer (config : Config) (s : Schema) (t : Table) (key : List String) : Layer Plan :=
  { schema := config.baseAlias
    name := t.name
    columns := t.columns
    primaryKey := key
    plan := (t.redirection config s key).plan
    redirectedSchema := config.redirectedSchema
    shadow := t.shadow key }

namespace Schema

/-- The layer of the table named `name`. -/
def layer (s : Schema) (config : Config) (name : String) : Except Error (Layer Plan) := do
  match s.table? name with
  | none => .error (.unknownTable name)
  | some t =>
    match t.rowKey? with
    | none => .error (.missingPrimaryKey t.name)
    | some key =>
      s.validateTable t
      (s.referencing t.name).forM fun (owner, _) => s.validateTable owner
      .ok (t.layer config s key)

/-- The layers of all tables, in order; the first table without one is the error. -/
def layers (s : Schema) (config : Config) : Except Error (List (Layer Plan)) :=
  s.tables.mapM fun t => s.layer config t.name

/-- Each table with its layer or the reason why it has none. -/
def survey (s : Schema) (config : Config) : List (Table × Except Error (Layer Plan)) :=
  s.tables.map fun t => (t, s.layer config t.name)

end Schema
end Overlay
