import Overlay.RowStatus

/-!
# Trigger bodies

The triggers of a view are small programs over two relations. A program (`Body`) is a sequence of
statements and branches; its text (`Body.trigger`) has one statement, header or bracket on a line,
four blanks deeper for each block.
-/

namespace Overlay

/-- A relation by its schema and its name. -/
structure Relation where
  schema : String
  name : String
  deriving DecidableEq, Repr

/-- The qualified name of a relation. -/
def Relation.text (r : Relation) : String :=
  r.schema ++ "." ++ r.name

/-- The two images of the row for which a trigger runs. -/
inductive RowImage where
  /-- The row before the operation. -/
  | old
  /-- The row after the operation. -/
  | new
  deriving DecidableEq, Repr

/-- The two ways to write a row. -/
inductive WriteMode where
  /-- Adds a row, and fails if there is one with its key. -/
  | insert
  /-- Adds a row in place of the one with its key. -/
  | upsert
  deriving DecidableEq, Repr

/-- A row to be written: an image of the trigger's row with a status. -/
structure RowWrite where
  mode : WriteMode
  target : Relation
  columns : List String
  image : RowImage
  status : RowStatus
  deriving DecidableEq, Repr

/-- A statement of a trigger body. -/
inductive Statement where
  /-- Sets the flag: whether `relation` has a row with the key of the image. -/
  | findKey (relation : Relation) (key : List String) (image : RowImage)
  /-- Writes a row. -/
  | write (row : RowWrite)
  /-- Refuses the operation with a message. -/
  | refuse (message : String)
  deriving DecidableEq, Repr

/-- A condition of a branch. -/
inductive Condition where
  /-- The flag is set. -/
  | keyFound
  /-- The operation assigns one of these columns. -/
  | changing (columns : List String)
  /-- The relation has a row in which the first column of each pair equals the old value of the
  second. -/
  | rowsExist (relation : Relation) (pairs : List (String × String))
  deriving DecidableEq, Repr

/-- The body of a trigger. -/
inductive Body where
  | done
  /-- Runs the statement, then the rest. -/
  | run (statement : Statement) (rest : Body)
  /-- Runs `yes` if the condition holds, then the rest. -/
  | guard (condition : Condition) (yes : Body) (rest : Body)
  /-- Runs `yes` if the condition holds and `no` if not, then the rest. -/
  | branch (condition : Condition) (yes no : Body) (rest : Body)
  deriving DecidableEq, Repr

/-! ### Text -/

/-- The characters of a string literal between its single quotes: each quote is doubled. -/
def Text.doubleQuotes (cs : List Char) : List Char :=
  cs.flatMap fun c => if c = '\x27' then ['\x27', '\x27'] else [c]

/-- A text as a string literal. -/
def Text.quoted (text : String) : String :=
  "'" ++ String.ofList (doubleQuotes text.toList) ++ "'"

/-- The name by which a trigger refers to an image of its row. -/
def RowImage.text : RowImage → String
  | old => "OLD"
  | new => "NEW"

/-- The verb of a way to write. -/
def WriteMode.text : WriteMode → String
  | insert => "INSERT"
  | upsert => "UPSERT"

/-- Column names separated by commas. -/
def columnList (columns : List String) : String :=
  String.intercalate ", " columns

/-- A column behind the name of a row or relation. -/
def qualified (owner column : String) : String :=
  owner ++ "." ++ column

/-- An equation for each pair, all of which have to hold. -/
def equations (pairs : List (String × String)) : String :=
  String.intercalate " AND " (pairs.map fun (left, right) => left ++ " = " ++ right)

/-- The text of a row to be written: the status comes after the columns. -/
def RowWrite.text (w : RowWrite) : String :=
  w.mode.text ++ " INTO " ++ w.target.text ++
    " (" ++ columnList w.columns ++ ", " ++ statusColumn ++ ") VALUES (" ++
    columnList (w.columns.map (qualified w.image.text)) ++ ", " ++ w.status.text ++ ");"

/-- The text of a statement. -/
def Statement.text : Statement → String
  | findKey relation key image =>
    "DECLARE boolean VARIABLES.X = (SELECT true FROM " ++ relation.text ++ " WHERE " ++
      equations (key.map fun k => (k, qualified image.text k)) ++ ");"
  | write row => row.text
  | refuse message => "RAISE SQLEXCEPTION " ++ Text.quoted message ++ ";"

/-- The text of a condition. -/
def Condition.text : Condition → String
  | keyFound => "VARIABLES.X"
  | changing columns => String.intercalate " OR " (columns.map (qualified "CHANGING"))
  | rowsExist relation pairs =>
    "(SELECT COUNT(*) > 0 FROM " ++ relation.text ++ " WHERE " ++
      equations (pairs.map fun (column, target) => (column, qualified RowImage.old.text target)) ++
      ")"

/-- A line of text at a depth of blocks. -/
def indented (depth : Nat) (text : String) : String :=
  String.ofList (List.replicate (4 * depth) ' ') ++ text

/-- A block at a depth: its header and the lines inside it between brackets. -/
def block (depth : Nat) (header : String) (inner : List String) : List String :=
  indented depth header :: indented depth "BEGIN" :: inner ++ [indented depth "END"]

/-- The header of a block that runs if the condition holds. -/
def Condition.header (c : Condition) : String :=
  "IF (" ++ c.text ++ ")"

/-- The lines of a body at a depth of blocks. -/
def Body.lines (depth : Nat) : Body → List String
  | done => []
  | run statement rest => indented depth statement.text :: rest.lines depth
  | guard condition yes rest =>
    block depth condition.header (yes.lines (depth + 1)) ++ rest.lines depth
  | branch condition yes no rest =>
    block depth condition.header (yes.lines (depth + 1)) ++
      block depth "ELSE" (no.lines (depth + 1)) ++ rest.lines depth

/-- The lines of the trigger that runs a body for each row. -/
def Body.triggerLines (body : Body) : List String :=
  "FOR EACH ROW" :: "BEGIN ATOMIC" :: body.lines 1 ++ ["END"]

/-- The text of the trigger that runs a body for each row. -/
def Body.trigger (body : Body) : String :=
  String.intercalate "\n" body.triggerLines

end Overlay
