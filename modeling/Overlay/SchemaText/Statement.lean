import Overlay.Text.Case
import Overlay.Text.Phrase

/-!
# The lines of a schema text

A schema text has one statement on a line. Outside a table a line is the head of the schema or of a
table; inside a table it is a column, a primary key or a foreign key:

```text
schema NAME
table NAME {
NAME TYPE constraint*
primary key (NAME, …)
foreign key (NAME, …) references NAME [(NAME, …)]
```

A constraint of a column is `primary_key`, `not_null`, `nullable` or a reference. Spaces and tabs
have to stand between two words and behind a closing parenthesis that a word follows; they may stand
around the other symbols.
-/

namespace Overlay.SchemaText

open Overlay.Text

/-- A constraint of a column. A reference without column list has no target columns. -/
inductive Constraint where
  | primaryKey
  | notNull
  | nullable
  | references (target : String) (targetColumns : List String)
  deriving DecidableEq, Repr

/-- A line inside a table. A reference without column list has no target columns. -/
inductive BodyLine where
  | primaryKey (columns : List String)
  | foreignKey (columns : List String) (target : String) (targetColumns : List String)
  | column (name typeWord : String) (constraints : List Constraint)
  deriving DecidableEq, Repr

/-- What follows a keyword. -/
def after (keyword : String) (cs : List Char) : Option (List Char) :=
  afterKeyword keyword.toList cs

/-! ### Phrases of a line -/

/-- A comma, with any spaces around it, and the word behind it. -/
def nextName : Phrase String := fun cs => do
  let cs ← skipSymbol ',' (skipSpaces cs)
  word (skipSpaces cs)

/-- A list of names in parentheses, separated by commas. -/
def nameList : Phrase (List String) := fun cs => do
  let cs ← skipSymbol '(' cs
  let (first, cs) ← word (skipSpaces cs)
  let (others, cs) := many nextName cs
  let cs ← skipSymbol ')' (skipSpaces cs)
  some (first :: others, cs)

/-- The target of a reference and its columns, if they are listed. -/
def reference : Phrase (String × List String) := fun cs => do
  let cs ← after "references" cs
  let (target, cs) ← word (← skipGap cs)
  match nameList (skipSpaces cs) with
  | some (columns, cs) => some ((target, columns), cs)
  | none => some ((target, []), cs)

/-- A constraint of a column. -/
def constraint : Phrase Constraint := fun cs =>
  (reference cs).map (fun ((target, columns), cs) => (.references target columns, cs)) <|>
  (after "primary_key" cs).map (.primaryKey, ·) <|>
  (after "not_null" cs).map (.notNull, ·) <|>
  (after "nullable" cs).map (.nullable, ·)

/-- The words `word key` and the list of names behind them. -/
def keyClause (keyword : String) : Phrase (List String) := fun cs => do
  let cs ← skipGap (← after keyword cs)
  let cs ← after "key" cs
  nameList (skipSpaces cs)

/-- A primary key. -/
def primaryKeyLine : Phrase BodyLine := fun cs => do
  let (columns, cs) ← keyClause "primary" cs
  some (.primaryKey columns, cs)

/-- A foreign key. -/
def foreignKeyLine : Phrase BodyLine := fun cs => do
  let (columns, cs) ← keyClause "foreign" cs
  let ((target, targetColumns), cs) ← reference (← skipGap cs)
  some (.foreignKey columns target targetColumns, cs)

/-- A column with its constraints. -/
def columnLine : Phrase BodyLine := fun cs => do
  let (name, cs) ← word cs
  let (typeWord, cs) ← word (← skipGap cs)
  let (constraints, cs) := many (fun cs => do constraint (← skipGap cs)) cs
  some (.column name typeWord constraints, cs)

/-! ### Whole lines -/

/-- The line as a line inside a table. The first of the three forms that reads a part of the line
has to read all of it. -/
def bodyLine? : List Char → Option BodyLine :=
  whole fun cs => primaryKeyLine cs <|> foreignKeyLine cs <|> columnLine cs

/-- The name in a line that is the head of a schema. -/
def schemaHead? : List Char → Option String :=
  whole fun cs => do word (← skipGap (← after "schema" cs))

/-- The name in a line that is the head of a table. -/
def tableHead? : List Char → Option String :=
  whole fun cs => do
    let (name, cs) ← word (← skipGap (← after "table" cs))
    let cs ← skipSymbol '{' (skipSpaces cs)
    some (name, cs)

end Overlay.SchemaText
