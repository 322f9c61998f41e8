import Overlay.SchemaText.Statement

/-!
# The grammar of the lines of a schema text

The lines are described here by what they are made of and not by how they are read: words, gaps
between words, keywords in letters of any case, and symbols with optional spaces around them. Each
production relates a text to what it stands for.

```text
schema      = "schema" NAME
table       = "table" NAME "{"
column      = NAME TYPE constraint*
constraint  = "primary_key" | "not_null" | "nullable" | reference
primary key = "primary" "key" names
foreign key = "foreign" "key" names reference
reference   = "references" NAME [names]
names       = "(" NAME ("," NAME)* ")"
```
-/

namespace Overlay.SchemaText.Grammar

open Overlay.Text

/-! ### Parts of a line -/

/-- Any number of spaces and tabs. -/
def Spaces (cs : List Char) : Prop :=
  ∀ c ∈ cs, isSpace c = true

/-- At least one space or tab. -/
def Gap (cs : List Char) : Prop :=
  cs ≠ [] ∧ Spaces cs

/-- The characters of a word: letters, digits and `_`, at least one. -/
def Word (cs : List Char) (word : String) : Prop :=
  cs = word.toList ∧ cs ≠ [] ∧ ∀ c ∈ cs, isWordChar c = true

/-- The characters of a keyword, up to the case of ASCII letters. -/
def Keyword (keyword : String) (cs : List Char) : Prop :=
  cs.map Char.toLower = keyword.toList

instance (cs : List Char) : Decidable (Spaces cs) :=
  List.decidableBAll _ cs

instance (cs : List Char) : Decidable (Gap cs) :=
  inferInstanceAs (Decidable (cs ≠ [] ∧ Spaces cs))

instance (cs : List Char) (word : String) : Decidable (Word cs word) :=
  haveI : Decidable (∀ c ∈ cs, isWordChar c = true) := List.decidableBAll _ cs
  inferInstanceAs (Decidable (cs = word.toList ∧ cs ≠ [] ∧ ∀ c ∈ cs, isWordChar c = true))

instance (keyword : String) (cs : List Char) : Decidable (Keyword keyword cs) :=
  inferInstanceAs (Decidable (cs.map Char.toLower = keyword.toList))

/-- The names of a list behind the first, each after a comma. -/
inductive MoreNames : List Char → List String → Prop where
  | nil : MoreNames [] []
  | cons {g₁ g₂ w cs : List Char} {name : String} {names : List String} :
      Spaces g₁ → Spaces g₂ → Word w name → MoreNames cs names →
        MoreNames (g₁ ++ ',' :: g₂ ++ w ++ cs) (name :: names)

/-- A list of names in parentheses. -/
inductive Names : List Char → List String → Prop where
  | list {g₁ w cs g₂ : List Char} {name : String} {names : List String} :
      Spaces g₁ → Word w name → MoreNames cs names → Spaces g₂ →
        Names ('(' :: g₁ ++ w ++ cs ++ g₂ ++ [')']) (name :: names)

/-- A reference to a table, with or without a list of its columns. -/
inductive Reference : List Char → String → List String → Prop where
  | table {k g w : List Char} {target : String} :
      Keyword "references" k → Gap g → Word w target → Reference (k ++ g ++ w) target []
  | columns {k g w g₁ l : List Char} {target : String} {names : List String} :
      Keyword "references" k → Gap g → Word w target → Spaces g₁ → Names l names →
        Reference (k ++ g ++ w ++ g₁ ++ l) target names

/-- A constraint of a column. -/
inductive IsConstraint : List Char → Constraint → Prop where
  | primaryKey {k : List Char} : Keyword "primary_key" k → IsConstraint k .primaryKey
  | notNull {k : List Char} : Keyword "not_null" k → IsConstraint k .notNull
  | nullable {k : List Char} : Keyword "nullable" k → IsConstraint k .nullable
  | references {r : List Char} {target : String} {names : List String} :
      Reference r target names → IsConstraint r (.references target names)

/-- Any number of constraints, each after a gap. -/
inductive Constraints : List Char → List Constraint → Prop where
  | nil : Constraints [] []
  | cons {g k cs : List Char} {c : Constraint} {l : List Constraint} :
      Gap g → IsConstraint k c → Constraints cs l → Constraints (g ++ k ++ cs) (c :: l)

/-- The words `keyword key` and the list of names behind them. -/
inductive KeyClause (keyword : String) : List Char → List String → Prop where
  | clause {p g k g₁ l : List Char} {names : List String} :
      Keyword keyword p → Gap g → Keyword "key" k → Spaces g₁ → Names l names →
        KeyClause keyword (p ++ g ++ k ++ g₁ ++ l) names

/-! ### Whole lines -/

/-- A line inside a table. -/
inductive IsBodyLine : List Char → BodyLine → Prop where
  | primaryKey {cs : List Char} {names : List String} :
      KeyClause "primary" cs names → IsBodyLine cs (.primaryKey names)
  | foreignKey {cs g r : List Char} {names targetNames : List String} {target : String} :
      KeyClause "foreign" cs names → Gap g → Reference r target targetNames →
        IsBodyLine (cs ++ g ++ r) (.foreignKey names target targetNames)
  | column {n g t cs : List Char} {name typeWord : String} {constraints : List Constraint} :
      Word n name → Gap g → Word t typeWord → Constraints cs constraints →
        IsBodyLine (n ++ g ++ t ++ cs) (.column name typeWord constraints)

/-- The line at the head of a schema. -/
inductive IsSchemaHead : List Char → String → Prop where
  | head {k g w : List Char} {name : String} :
      Keyword "schema" k → Gap g → Word w name → IsSchemaHead (k ++ g ++ w) name

/-- The line at the head of a table. -/
inductive IsTableHead : List Char → String → Prop where
  | head {k g w g₁ : List Char} {name : String} :
      Keyword "table" k → Gap g → Word w name → Spaces g₁ →
        IsTableHead (k ++ g ++ w ++ g₁ ++ ['{']) name

end Overlay.SchemaText.Grammar
