import Overlay.CommandLine.Invocation
import Overlay.CommandLine.Style
import Overlay.Layer.Definition
import Overlay.Layer.Json

/-!
# Reports

What the two commands print: the layers of a schema in one of three forms, and for each table
whether it can be redirected.
-/

namespace Overlay.CommandLine

/-- A text as a line of its own. -/
def asLine (text : String) : String :=
  text ++ "\n"

/-- A part of a plan under its title. -/
def planPart (colours : Bool) (title text : String) : String :=
  "\n" ++ asLine (paint colours .boldGreen (title ++ ":")) ++ asLine text

/-- The layer with the texts of its plan. -/
def layerReport (colours : Bool) (layer : Layer PlanText) : String :=
  asLine (paint colours .cyan "▸" ++ " " ++ paint colours .boldWhite layer.schema ++ "." ++
      paint colours .boldWhite layer.name ++ " " ++ paint colours .dimmed "→" ++ " " ++
      paint colours .yellow layer.redirectedSchema ++ "." ++
      paint colours .yellow layer.shadow.name) ++
    planPart colours "Select" layer.plan.select ++ planPart colours "Insert" layer.plan.insert ++
    planPart colours "Update" layer.plan.update ++ planPart colours "Delete" layer.plan.delete ++
    "\n"

/-- The layers in the form that was asked for. -/
def planReport (colours : Bool) (config : Config) (format : Format)
    (layers : List (Layer PlanText)) : String :=
  match format with
  | .sql => String.join (layers.map (layerReport colours))
  | .json => asLine (Json.arr (layers.map Layer.json)).pretty
  | .ddl => asLine (schemaDefinition config layers)

/-- The line of a table in the report of `check`. -/
def surveyLine (colours : Bool) (s : Schema) : Table × Except Error (Layer Plan) → String
  | (table, .ok layer) =>
    asLine ("  " ++ paint colours .green "✓" ++ " " ++ paint colours .white table.name ++
      " (key: " ++ paint colours .cyan (columnList layer.primaryKey) ++ ", referenced by " ++
      toString (s.referencing table.name).length ++ " key(s))")
  | (table, .error e) =>
    asLine ("  " ++ paint colours .red "✗" ++ " " ++ paint colours .white table.name ++ " " ++
      paint colours .dimmed e.message)

/-- The last line in the report of `check`. -/
def surveySummary (colours : Bool) (total blocked : Nat) : String :=
  asLine <|
    if blocked = 0 then
      paint colours .green "✓" ++ " all " ++ toString total ++ " table(s) can be redirected"
    else
      paint colours .yellow "⚠" ++ " " ++ toString blocked ++ " of " ++ toString total ++
        " table(s) cannot be redirected"

/-- Whether a table in a survey has no layer. -/
def isBlocked (entry : Table × Except Error (Layer Plan)) : Bool :=
  entry.2.toOption.isNone

/-- For each table whether it can be redirected, and how many cannot. -/
def checkReport (colours : Bool) (config : Config) (s : Schema) : String :=
  let survey := s.survey config
  asLine (paint colours .dimmed "Schema:" ++ " " ++ paint colours .boldWhite s.name ++ " " ++
      paint colours .dimmed "→" ++ " " ++ paint colours .yellow config.redirectedSchema) ++
    String.join (survey.map (surveyLine colours s)) ++ "\n" ++
    surveySummary colours s.tables.length (survey.countP isBlocked)

end Overlay.CommandLine
