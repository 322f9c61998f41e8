import Overlay.Layer.Basic

/-!
# Definition texts

The statements that create the relations of a layer: its shadow table, its view and the triggers of
the view. The definitions of a schema put all shadow tables before all views.
-/

namespace Overlay

/-- The line of a column; the columns of the key are not null. -/
def Column.definition (key : Option (List String)) (c : Column) : String :=
  "    " ++ c.name ++ " " ++ c.type.name ++
    if !c.nullable || key.any (keyNames · c.name) then " NOT NULL" else ""

/-- The line of a primary key. -/
def keyDefinition (key : List String) : String :=
  "    PRIMARY KEY(" ++ columnList key ++ ")"

/-- The lines of columns and key, separated by commas. -/
def columnBlock (columns : List Column) (key : Option (List String)) : String :=
  String.intercalate ",\n"
    (columns.map (Column.definition key) ++ (key.map keyDefinition).toList)

namespace Layer

/-- The statement that creates the shadow table. -/
def shadowDefinition {π : Type} (layer : Layer π) : String :=
  "CREATE FOREIGN TABLE " ++ layer.shadow.name ++ " (\n" ++
    columnBlock layer.shadow.columns layer.shadow.primaryKey ++ "\n);"

/-- The statement that creates the view without its triggers. -/
def viewStatement (layer : Layer PlanText) : String :=
  "CREATE VIEW " ++ layer.name ++ " (\n" ++ columnBlock layer.columns (some layer.primaryKey) ++
    "\n) OPTIONS (UPDATABLE 'TRUE')\nAS\n" ++ layer.plan.select ++ ";"

/-- The statement that creates the trigger of an event. -/
def triggerStatement {π : Type} (layer : Layer π) (event body : String) : String :=
  "CREATE TRIGGER ON " ++ layer.name ++ " INSTEAD OF " ++ event ++ " AS\n" ++ body ++ ";"

/-- The statements that create the view and its triggers. -/
def viewStatements (layer : Layer PlanText) : List String :=
  [layer.viewStatement,
    layer.triggerStatement "INSERT" layer.plan.insert,
    layer.triggerStatement "UPDATE" layer.plan.update,
    layer.triggerStatement "DELETE" layer.plan.delete]

/-- The definition of the view: its statements with a blank line between any two. -/
def viewDefinition (layer : Layer PlanText) : String :=
  String.intercalate "\n\n" layer.viewStatements

end Layer

/-- The statement that selects the schema of the definitions that follow. -/
def schemaStatement (schema : String) : String :=
  "SET SCHEMA " ++ schema ++ ";"

/-- The definitions of both schemas: first the shadow tables, then the views. -/
def schemaDefinition (config : Config) (layers : List (Layer PlanText)) : String :=
  String.intercalate "\n\n"
    (schemaStatement config.redirectedSchema :: layers.map Layer.shadowDefinition ++
      schemaStatement config.baseAlias :: layers.map Layer.viewDefinition)

end Overlay
