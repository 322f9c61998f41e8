import Overlay.ColumnType

/-!
# What can go wrong

One constructor for each cause, and one function (`Error.message`) for its wording.
-/

namespace Overlay

/-- What is wrong with a primary key whose columns exist. -/
inductive KeyFault where
  /-- The key has no columns. -/
  | empty
  /-- A column of the key has a type that cannot identify a row. -/
  | cannotIdentifyRow (column : String) (type : ColumnType)
  deriving DecidableEq, Repr

/-- What is wrong with a foreign key whose columns exist. -/
inductive ReferenceFault where
  /-- No table has the name of the target. -/
  | missingTarget (target : String)
  /-- The columns of the target are left out and the target has no primary key. -/
  | targetWithoutKey (target : String)
  /-- The two column lists are empty or differ in length. -/
  | lengths (columns targetColumns : Nat)
  deriving DecidableEq, Repr

/-- What is wrong with a schema text at a line. -/
inductive TextFault where
  /-- A second schema head. -/
  | schemaTwice
  /-- A table head before the schema head. -/
  | tableBeforeSchema
  /-- A line outside any table that is no head. -/
  | unknownStatement (line : String)
  /-- A line inside a table that is neither column nor key. -/
  | invalidBodyLine (line : String)
  /-- A column whose type is unknown. -/
  | unknownType (word : String)
  /-- A second primary key line in a table. -/
  | primaryKeyTwice
  /-- A table with marked key columns and a primary key line. -/
  | inlineAndClauseKey (table : String)
  /-- A table whose name another table has. -/
  | duplicateTable (table : String)
  /-- A table without closing brace. -/
  | unclosedTable (table : String)
  /-- A text without schema head. -/
  | noSchema
  deriving DecidableEq, Repr

/-- The two settings of a configuration. -/
inductive Setting where
  /-- The schema of the shadow tables. -/
  | redirectedSchema
  /-- The schema of the views. -/
  | baseAlias
  deriving DecidableEq, Repr

/-- The key of a setting in a configuration document. -/
def Setting.key : Setting → String
  | redirectedSchema => "redirected_schema"
  | baseAlias => "base_schema_alias"

/-- What is wrong with a configuration. -/
inductive ConfigFault where
  /-- The text is no well-typed configuration document. -/
  | malformed
  /-- A name has no character but white space. -/
  | blank (setting : Setting)
  /-- Both names are the same. -/
  | sameNames
  deriving DecidableEq, Repr

/-- Why a file cannot be read as text. -/
inductive FileFault where
  | notFound
  | isDirectory
  | notDirectory
  | notUtf8
  | other (reason : String)
  deriving DecidableEq, Repr

/-- Why an operation fails. -/
inductive Error where
  /-- A table to be redirected has no primary key. -/
  | missingPrimaryKey (table : String)
  /-- No table has the name that was asked for. -/
  | unknownTable (name : String)
  /-- A key names a column that the table does not have. -/
  | unknownColumn (table column : String)
  /-- A primary key is wrong. -/
  | primaryKey (table : String) (fault : KeyFault)
  /-- A foreign key is wrong. -/
  | foreignKey (table : String) (fault : ReferenceFault)
  /-- A schema text is wrong at a line, counted from 1. -/
  | text (line : Nat) (fault : TextFault)
  /-- A configuration is wrong. -/
  | config (fault : ConfigFault)
  /-- A file cannot be read. -/
  | file (fault : FileFault)
  deriving DecidableEq, Repr

/-! ### Wording -/

/-- What is said of a word that is no column type. -/
def unknownTypeMessage (word : String) : String :=
  "Unknown column type: " ++ word

/-- What is said of a faulty primary key. -/
def KeyFault.message : KeyFault → String
  | empty => "key has no columns"
  | cannotIdentifyRow column type =>
    "column " ++ column ++ " of type " ++ type.name ++ " cannot identify a row"

/-- What is said of a faulty foreign key. -/
def ReferenceFault.message : ReferenceFault → String
  | missingTarget target => "referenced table " ++ target ++ " does not exist"
  | targetWithoutKey target => target ++ " has no primary key to reference implicitly"
  | lengths columns targetColumns =>
    toString columns ++ " local column(s) for " ++ toString targetColumns ++ " referenced column(s)"

/-- What is said of a faulty line. -/
def TextFault.message : TextFault → String
  | schemaTwice => "schema declared twice"
  | tableBeforeSchema => "`schema <name>` must precede the first table"
  | unknownStatement line => "unknown statement: " ++ line
  | invalidBodyLine line => "invalid table body line: " ++ line
  | unknownType word => unknownTypeMessage word
  | primaryKeyTwice => "primary key declared twice"
  | inlineAndClauseKey table =>
    "table " ++ table ++ " declares its primary key both inline and as a clause"
  | duplicateTable table => "duplicate table " ++ table
  | unclosedTable table => "table " ++ table ++ " is missing its closing brace"
  | noSchema => "missing `schema <name>` declaration"

/-- What is said of a faulty configuration. -/
def ConfigFault.message : ConfigFault → String
  | malformed => "TOML parse error"
  | blank setting => setting.key ++ " must not be empty"
  | sameNames =>
    Setting.redirectedSchema.key ++ " and " ++ Setting.baseAlias.key ++ " must differ"

/-- What is said of a file that cannot be read. -/
def FileFault.message : FileFault → String
  | notFound => "No such file or directory (os error 2)"
  | isDirectory => "Is a directory (os error 21)"
  | notDirectory => "Not a directory (os error 20)"
  | notUtf8 => "stream did not contain valid UTF-8"
  | other reason => reason

/-- The wording of an error. -/
def Error.message : Error → String
  | missingPrimaryKey table => "no primary key defined on table " ++ table
  | unknownTable name => "Unknown table: '" ++ name ++ "'"
  | unknownColumn table column => "Unknown column '" ++ column ++ "' on table " ++ table
  | primaryKey table fault => "Invalid primary key on table " ++ table ++ ": " ++ fault.message
  | foreignKey table fault => "Invalid foreign key on table " ++ table ++ ": " ++ fault.message
  | text line fault => "Parse error at line " ++ toString line ++ ": " ++ fault.message
  | config fault => "Configuration error: " ++ fault.message
  | file fault => "IO error: " ++ fault.message

end Overlay
