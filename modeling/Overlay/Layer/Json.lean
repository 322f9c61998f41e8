import Overlay.Json
import Overlay.Layer.Basic

/-!
# Schemas and layers as JSON

Column types, schemas, plans and layers as JSON values. Fields stand in the order in which they are
declared.
-/

namespace Overlay

/-- The type that a JSON value denotes: its name as a string, or an object that has the name as its
only key, with nothing behind it. -/
def ColumnType.ofJson? : Json → Option ColumnType
  | .str name => ofName? name
  | .obj [(name, .null)] => ofName? name
  | _ => none

/-- A column with its type by name. -/
def Column.json (c : Column) : Json :=
  .obj [("name", .str c.name), ("data_type", .str c.type.name), ("nullable", .bool c.nullable)]

/-- A foreign key with both column lists. -/
def ForeignKey.json (fk : ForeignKey) : Json :=
  .obj [("columns", .strings fk.columns), ("referenced_table", .str fk.target),
    ("referenced_columns", .strings fk.targetColumns)]

/-- A table; a missing primary key is `null`. -/
def Table.json (t : Table) : Json :=
  .obj [("name", .str t.name), ("columns", .arr (t.columns.map Column.json)),
    ("primary_key", (t.primaryKey.map Json.strings).getD .null),
    ("foreign_keys", .arr (t.foreignKeys.map ForeignKey.json))]

/-- A schema with all its tables. -/
def Schema.json (s : Schema) : Json :=
  .obj [("name", .str s.name), ("tables", .arr (s.tables.map Table.json))]

/-- The four texts of a plan. -/
def PlanText.json (p : PlanText) : Json :=
  .obj [("select_transformation", .str p.select), ("insert_plan", .str p.insert),
    ("update_plan", .str p.update), ("delete_plan", .str p.delete)]

/-- A layer with its shadow table. -/
def Layer.json (layer : Layer PlanText) : Json :=
  .obj [("schema", .str layer.schema), ("name", .str layer.name),
    ("columns", .arr (layer.columns.map Column.json)),
    ("primary_key", .strings layer.primaryKey), ("plan", layer.plan.json),
    ("redirected_schema", .str layer.redirectedSchema), ("shadow", layer.shadow.json)]

end Overlay
