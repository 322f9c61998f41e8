import Overlay.CommandLine.Report
import Overlay.Config.Reader
import Overlay.SchemaText.Reader

/-!
# Running a command

A run is a function of the command line, the environment and the contents of the files. The
configuration is read and checked first, then values of the command line and the environment take
the place of its own and it is checked again, then the schema is read, then the report is made. The
first failure ends the run.
-/

namespace Overlay.CommandLine

/-- What a run leaves behind. -/
structure Outcome where
  /-- 0 if the run succeeds, 1 if a step fails, 2 if the command line is wrong. -/
  exitCode : Nat
  stdout : String
  /-- What the run itself says on the standard error, apart from its log. -/
  stderr : String
  deriving DecidableEq, Repr

/-- The step of a run that fails. -/
inductive Failure where
  /-- The configuration cannot be loaded. -/
  | load (cause : Error)
  /-- The configuration is not sound with the values from outside. -/
  | override (cause : Error)
  /-- The schema file cannot be read. -/
  | readSchema (path : String) (fault : FileFault)
  /-- The schema file holds no schema. -/
  | schema (path : String) (cause : Error)
  /-- A layer cannot be built. -/
  | layer (cause : Error)
  deriving DecidableEq, Repr

/-- An error with its cause, if it has one. -/
def withCause (e : Error) : String :=
  match e with
  | .file fault => e.message ++ ": " ++ fault.message
  | _ => e.message

/-- What is said of a failure. -/
def Failure.message : Failure → String
  | load cause => "failed to load config: " ++ withCause cause
  | override cause => withCause cause
  | readSchema path fault => "failed to read " ++ path ++ ": " ++ fault.message
  | schema path cause => "invalid schema " ++ path ++ ": " ++ withCause cause
  | layer cause => withCause cause

/-- What the files hold that a run reads. -/
structure Inputs where
  /-- Where the configuration comes from. -/
  config : Config.Source
  /-- What comes of reading the schema file. -/
  schema : Except FileFault String

/-- The configuration with the values that the invocation puts above it. -/
def Invocation.overrides (i : Invocation) (config : Config) : Config :=
  { redirectedSchema := i.redirectedSchema.getD config.redirectedSchema
    baseAlias := i.baseAlias.getD config.baseAlias }

/-- The configuration of a run. -/
def Invocation.resolve (i : Invocation) (source : Config.Source)
    (toml : Config.DocumentReader := Toml.read) : Except Failure Config := do
  let config ← (Config.load source toml).mapError .load
  (i.overrides config).check.mapError .override

/-- The schema in a schema file. -/
def loadSchema (path : String) (file : Except FileFault String) : Except Failure Schema := do
  let text ← file.mapError (.readSchema path)
  (Schema.read text).mapError (.schema path)

/-- The layers of all tables, or of the one that is named. -/
def chosenLayers (s : Schema) (config : Config) : Option String → Except Error (List (Layer Plan))
  | some name => (s.layer config name).map ([·])
  | none => s.layers config

/-- What a command prints. -/
def Invocation.report (i : Invocation) (colours : Bool) (inputs : Inputs) :
    Except Failure String := do
  let config ← i.resolve inputs.config
  let s ← loadSchema i.command.schema inputs.schema
  match i.command with
  | .plan _ table format =>
    let layers ← (chosenLayers s config table).mapError .layer
    .ok (planReport colours config format (layers.map Layer.written))
  | .check _ => .ok (checkReport colours config s)

/-- Whether colours are wanted although the output is no terminal. -/
def Environment.colours (env : Environment) : Bool :=
  env.forceColour.any (· != "0")

/-- The outcome of a command: its report, or the failure in one line. -/
def Invocation.outcome (i : Invocation) (colours : Bool) (inputs : Inputs) : Outcome :=
  match i.report colours inputs with
  | .ok report => { exitCode := 0, stdout := report, stderr := "" }
  | .error failure =>
    { exitCode := 1
      stdout := ""
      stderr := asLine (paint colours .boldRed "Error:" ++ " " ++ failure.message) }

/-- The version of the program. -/
def version : String := "0.3.0"

/-- The outcome when there is no command. -/
def Halt.outcome : Halt → Outcome
  | .version =>
    { exitCode := 0, stdout := asLine ("redirect " ++ CommandLine.version), stderr := "" }
  | .usage =>
    { exitCode := 2
      stdout := ""
      stderr := asLine "usage: redirect [OPTIONS] (plan | check) SCHEMA" }

end Overlay.CommandLine
