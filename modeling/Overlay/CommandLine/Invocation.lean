import Overlay.CommandLine.Argument

/-!
# Command lines

A command line is a list of arguments: options, the name of a command, options of the command and
the path of a schema file.

```text
redirect [option*] plan SCHEMA [-t|--table NAME] [-f|--format sql|json|ddl]
redirect [option*] check SCHEMA
```

The options `-c|--config PATH`, `--redirected-schema NAME`, `--base-alias NAME` and `-v|--verbose`
may stand before and behind the name of the command, the other arguments behind it in any order.
-/

namespace Overlay.CommandLine

/-- What the program is asked to do with a schema file. -/
inductive Command where
  /-- Print the layers of all tables, or of one table. -/
  | plan (schema : String) (table : Option String) (format : Format)
  /-- Report which tables can be redirected. -/
  | check (schema : String)
  deriving DecidableEq, Repr

/-- The path of the schema file. -/
def Command.schema : Command → String
  | plan schema _ _ => schema
  | check schema => schema

/-- A command with the values that stand above those of the configuration file. -/
structure Invocation where
  /-- The path of the configuration file that is asked for. -/
  config : Option String
  /-- The redirected schema that is asked for. -/
  redirectedSchema : Option String
  /-- The base alias that is asked for. -/
  baseAlias : Option String
  /-- Whether the whole log is asked for. -/
  verbose : Bool := false
  command : Command
  deriving DecidableEq, Repr

/-- The variables of the environment that count. -/
structure Environment where
  /-- The redirected schema where the command line names none. -/
  redirectedSchema : Option String
  /-- The base alias where the command line names none. -/
  baseAlias : Option String
  /-- Asks for colours unless it is `0`. -/
  forceColour : Option String
  deriving DecidableEq, Repr

/-- The invocation of a command. The value of an option is taken from behind the name of the
command, from before it, or from the environment, whichever comes first. -/
def Invocation.of (env : Environment) (before behind : Given) (command : Command) : Invocation :=
  let value (o : Opt) : Option String := behind.lookup o <|> before.lookup o
  { config := value .config
    redirectedSchema := value .redirectedSchema <|> env.redirectedSchema
    baseAlias := value .baseAlias <|> env.baseAlias
    verbose := (value .verbose).isSome
    command }

/-- What a command line asks for. -/
def Invocation.read (env : Environment) (arguments : List String) : Except Halt Invocation := do
  let (before, rest) ← takeOptions Opt.ofProgram [] arguments
  match rest with
  | "plan" :: rest => do
    let (behind, schema) ← takeCommand Opt.ofPlan rest
    let format := ((behind.lookup .format).bind Format.ofName?).getD .sql
    .ok (.of env before behind (.plan schema (behind.lookup .table) format))
  | "check" :: rest => do
    let (behind, schema) ← takeCommand Opt.ofCheck rest
    .ok (.of env before behind (.check schema))
  | _ => .error .usage

end Overlay.CommandLine
