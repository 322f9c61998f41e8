/-!
# Options

The options of the command line: their names, where they may stand, and which values they take.
-/

namespace Overlay.CommandLine

/-- An option. -/
inductive Opt where
  | config
  | redirectedSchema
  | baseAlias
  | verbose
  | version
  | table
  | format
  deriving DecidableEq, Repr

/-- The form in which layers are printed. -/
inductive Format where
  | sql
  | json
  | ddl
  deriving DecidableEq, Repr

/-- The format with this name. -/
def Format.ofName? : String → Option Format
  | "sql" => some .sql
  | "json" => some .json
  | "ddl" => some .ddl
  | _ => none

namespace Opt

/-- The options that may stand on either side of the name of a command. -/
def shared : List Opt := [config, redirectedSchema, baseAlias, verbose]

/-- The options before the name of the command. -/
def ofProgram : List Opt := shared ++ [version]

/-- The options behind `plan`. -/
def ofPlan : List Opt := shared ++ [table, format]

/-- The options behind `check`. -/
def ofCheck : List Opt := shared

/-- The name of an option behind `--`. -/
def long : Opt → String
  | config => "config"
  | redirectedSchema => "redirected-schema"
  | baseAlias => "base-alias"
  | verbose => "verbose"
  | version => "version"
  | table => "table"
  | format => "format"

/-- The letter of an option behind `-`, if it has one. -/
def short? : Opt → Option Char
  | config => some 'c'
  | verbose => some 'v'
  | version => some 'V'
  | table => some 't'
  | format => some 'f'
  | _ => none

/-- Whether an option takes a value. -/
def takesValue : Opt → Bool
  | verbose | version => false
  | _ => true

/-- Whether a value can be given to an option. -/
def accepts : Opt → String → Bool
  | config, value => !value.isEmpty
  | format, value => (Format.ofName? value).isSome
  | _, _ => true

end Opt

end Overlay.CommandLine
