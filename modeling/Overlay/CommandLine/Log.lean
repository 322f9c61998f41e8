import Overlay.CommandLine.Run

/-!
# The log

While it works a run logs records: that it loads a configuration file, that it has made the plan of
a table, that it has made the plans of all tables, or that it stops at a table. Which records are
shown depends on `-v` and on a filter that the environment may ask for; those that are shown stand
on the standard error, in front of what the run itself says there.
-/

namespace Overlay.CommandLine

/-- How grave a record is. -/
inductive LogLevel where
  | debug
  | info
  | warn
  deriving DecidableEq, Repr

/-- A record of the log. -/
structure LogRecord where
  level : LogLevel
  /-- The part of the program that the record comes from. -/
  target : String
  message : String
  /-- Values by their names. -/
  fields : List (String × String)
  deriving DecidableEq, Repr

namespace LogRecord

/-- Whether a record is a warning. -/
def isWarning (r : LogRecord) : Bool :=
  r.level == .warn

/-- A configuration file is loaded. -/
def loading (path : String) : LogRecord :=
  { level := .debug, target := "redirect_layer::config", message := "loading config"
    fields := [("path", path)] }

/-- The plan of a table has been made. -/
def planned (s : Schema) (table : String) : LogRecord :=
  { level := .debug, target := "redirect_layer::redirect", message := "generated redirection plan"
    fields := [("table", table), ("dependents", toString (s.referencing table).length)] }

/-- The plans of all tables have been made. -/
def built (s : Schema) (config : Config) : LogRecord :=
  { level := .info, target := "redirect_layer::redirect", message := "built redirection schema"
    fields := [("schema", s.name), ("redirected", config.redirectedSchema),
      ("tables", toString s.tables.length)] }

/-- A table without plan stands in the way of the others. -/
def aborted (s : Schema) (table error : String) : LogRecord :=
  { level := .warn, target := "redirect_layer::redirect", message := "redirection aborted"
    fields := [("schema", s.name), ("table", table), ("error", error)] }

end LogRecord

/-! ### What is logged -/

/-- What is logged while the layer of the table named `name` is made. -/
def layerLog (s : Schema) (config : Config) (name : String) : List LogRecord :=
  match s.layer config name with
  | .ok layer => [.planned s layer.name]
  | .error _ => []

/-- What is logged while the layers of tables are made up to the first that has none. -/
def layersLog (s : Schema) (config : Config) : List Table → List LogRecord
  | [] => [.built s config]
  | t :: rest =>
    match s.layer config t.name with
    | .ok layer => .planned s layer.name :: layersLog s config rest
    | .error e => [.aborted s t.name e.message]

/-- What a command logs that has its configuration and its schema. -/
def Command.log (config : Config) (s : Schema) : Command → List LogRecord
  | plan _ (some name) _ => layerLog s config name
  | plan _ none _ => layersLog s config s.tables
  | check _ => s.tables.flatMap fun t => layerLog s config t.name

/-- What is logged while the configuration is loaded. The standard configuration file stands at
`standardPath`. -/
def Invocation.configLog (i : Invocation) (standardPath : String) :
    Config.Source → List LogRecord
  | .standard none => []
  | _ => [.loading (i.config.getD standardPath)]

/-- What a run logs. -/
def Invocation.log (i : Invocation) (standardPath : String) (inputs : Inputs) : List LogRecord :=
  i.configLog standardPath inputs.config ++
    match i.resolve inputs.config, loadSchema i.command.schema inputs.schema with
    | .ok config, .ok s => i.command.log config s
    | _, _ => []

/-! ### What is shown -/

/-- How records are shown. -/
structure LogView where
  /-- The place of the standard configuration file. -/
  standardPath : String
  /-- The filter that the environment asks for, if it asks for one. -/
  filter : Option (LogRecord → Bool)
  /-- The text of a record, by the number of records shown before it. -/
  text : Nat → LogRecord → String

/-- Whether a record is shown: without a filter all records with `-v`, and else the warnings. -/
def Invocation.shows (i : Invocation) (view : LogView) (r : LogRecord) : Bool :=
  (view.filter.getD fun r => i.verbose || r.isWarning) r

/-- The texts of the records that are shown. -/
def Invocation.shown (i : Invocation) (view : LogView) (records : List LogRecord) : String :=
  String.join ((records.filter (i.shows view)).mapIdx view.text)

/-- What stands on the standard error after a run: the log, then what the run itself says. -/
def Invocation.standardError (i : Invocation) (view : LogView) (colours : Bool)
    (inputs : Inputs) : String :=
  i.shown view (i.log view.standardPath inputs) ++ (i.outcome colours inputs).stderr

end Overlay.CommandLine
