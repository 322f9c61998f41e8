import Overlay.CommandLine.Log

/-!
# The program

Reads the command line, the environment and the files, and prints the log and the outcome. The log
is shown without the time.
-/

namespace Overlay

/-- Why the system refuses to read a file. -/
def fileFault : IO.Error → FileFault
  | .noFileOrDirectory .. => .notFound
  | .inappropriateType _ 21 _ => .isDirectory
  | .inappropriateType .. => .notDirectory
  | e => .other (toString e)

/-- The text of a file. -/
def readText (path : String) : IO (Except FileFault String) := do
  match ← (IO.FS.readBinFile path).toBaseIO with
  | .error e => return .error (fileFault e)
  | .ok bytes => return (String.fromUTF8? bytes).elim (.error .notUtf8) .ok

/-- The directory for configuration files. -/
def configDirectory : IO (Option String) := do
  let home := (← IO.getEnv "HOME").map (· ++ "/.config")
  match ← IO.getEnv "XDG_CONFIG_HOME" with
  | some directory => return if directory.startsWith "/" then some directory else home
  | none => return home

/-- The place of the configuration file that is read when none is asked for. -/
def standardConfigPath : IO (Option String) := do
  return (← configDirectory).map (· ++ "/redirect-layer/config.toml")

/-- Whether a path leads to a regular file, as far as the system tells. -/
def isFile (path : String) : IO Bool := do
  match ← (do (← IO.FS.realPath path).metadata : IO IO.FS.Metadata).toBaseIO with
  | .ok metadata => return metadata.type == .file
  | .error _ => return false

/-- The configuration file at the standard place, if there is a file. -/
def readStandardConfig : IO (Option (Except FileFault String)) := do
  match ← standardConfigPath with
  | none => return none
  | some path => if ← isFile path then return some (← readText path) else return none

namespace CommandLine

/-- The filter that a plain level asks for. Longer filters count as if there were none. -/
def filterOf? (directive : String) : Option (LogRecord → Bool) :=
  match directive.toLower with
  | "off" | "error" => some fun _ => false
  | "warn" => some LogRecord.isWarning
  | "info" => some fun r => r.level != .debug
  | "debug" | "trace" => some fun _ => true
  | _ => none

/-- A record as a line. -/
def LogRecord.line (r : LogRecord) : String :=
  let level := match r.level with
    | .debug => "DEBUG"
    | .info => " INFO"
    | .warn => " WARN"
  asLine (level ++ " " ++ r.target ++ ": " ++ r.message ++
    String.join (r.fields.map fun (name, value) => " " ++ name ++ "=" ++ value))

end CommandLine

end Overlay

open Overlay CommandLine in
/-- Runs the command that the arguments name. -/
def main (arguments : List String) : IO UInt32 := do
  let env : Environment :=
    { redirectedSchema := ← IO.getEnv "REDIRECT_SCHEMA"
      baseAlias := ← IO.getEnv "REDIRECT_BASE_ALIAS"
      forceColour := ← IO.getEnv "CLICOLOR_FORCE" }
  let outcome ←
    match Invocation.read env arguments with
    | .error halt => pure halt.outcome
    | .ok invocation =>
      let config ←
        match invocation.config with
        | some path => pure (.asked (← readText path))
        | none => pure (.standard (← readStandardConfig))
      let inputs : Inputs := { config, schema := ← readText invocation.command.schema }
      let view : LogView :=
        { standardPath := (← standardConfigPath).getD ""
          filter := (← IO.getEnv "RUST_LOG").bind filterOf?
          text := fun _ r => r.line }
      pure { invocation.outcome env.colours inputs with
        stderr := invocation.standardError view env.colours inputs }
  (← IO.getStdout).putStr outcome.stdout
  (← IO.getStderr).putStr outcome.stderr
  return outcome.exitCode.toUInt32
