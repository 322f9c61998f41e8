import Overlay.ColumnType

/-!
# Schemas

A schema is a named list of tables, a table a named list of columns with its keys. Tables and
columns are looked up by name up to the case of ASCII letters; the first that matches counts.
-/

namespace Overlay

/-- A column of a table. -/
structure Column where
  name : String
  type : ColumnType
  nullable : Bool
  deriving DecidableEq, Repr

/-- A reference from columns of a table to columns of a target table. An empty list of target
columns stands for the primary key of the target. -/
structure ForeignKey where
  columns : List String
  target : String
  targetColumns : List String
  deriving DecidableEq, Repr

/-- A table with its columns, its primary key, if it has one, and its outgoing references. -/
structure Table where
  name : String
  columns : List Column
  primaryKey : Option (List String)
  foreignKeys : List ForeignKey
  deriving DecidableEq, Repr

/-- A named list of tables. -/
structure Schema where
  name : String
  tables : List Table
  deriving DecidableEq, Repr

/-- Whether a key names the column `column`. -/
def keyNames (key : List String) (column : String) : Bool :=
  key.any fun k => Text.sameName k column

namespace Table

/-- The first column with this name. -/
def column? (t : Table) (name : String) : Option Column :=
  t.columns.find? fun c => Text.sameName c.name name

/-- The names of the columns, in order. -/
def columnNames (t : Table) : List String :=
  t.columns.map Column.name

/-- The columns by which rows are told apart, if there are any. -/
def rowKey? (t : Table) : Option (List String) :=
  t.primaryKey.filter fun key => !key.isEmpty

theorem mem_of_column? {t : Table} {name : String} {c : Column} (h : t.column? name = some c) :
    c ∈ t.columns ∧ Text.sameName c.name name = true := by
  have hname := List.find?_some h
  exact ⟨List.mem_of_find?_eq_some h, hname⟩

theorem rowKey?_eq_some_iff {t : Table} {key : List String} :
    t.rowKey? = some key ↔ t.primaryKey = some key ∧ key ≠ [] := by
  simp [rowKey?, Option.filter_eq_some_iff]

end Table

namespace Schema

/-- The first table with this name. -/
def table? (s : Schema) (name : String) : Option Table :=
  s.tables.find? fun t => Text.sameName t.name name

/-- The foreign keys that point at the table named `name`, each with the table that owns it. -/
def referencing (s : Schema) (name : String) : List (Table × ForeignKey) :=
  s.tables.flatMap fun t =>
    (t.foreignKeys.filter fun fk => Text.sameName fk.target name).map fun fk => (t, fk)

theorem mem_of_table? {s : Schema} {name : String} {t : Table} (h : s.table? name = some t) :
    t ∈ s.tables ∧ Text.sameName t.name name = true := by
  have hname := List.find?_some h
  exact ⟨List.mem_of_find?_eq_some h, hname⟩

theorem mem_referencing {s : Schema} {name : String} {t : Table} {fk : ForeignKey} :
    (t, fk) ∈ s.referencing name ↔
      t ∈ s.tables ∧ fk ∈ t.foreignKeys ∧ Text.sameName fk.target name = true := by
  simp only [referencing, List.mem_flatMap, List.mem_map, List.mem_filter, Prod.mk.injEq]
  constructor
  · rintro ⟨t, ht, fk, hfk, rfl, rfl⟩
    exact ⟨ht, hfk⟩
  · rintro ⟨ht, hfk⟩
    exact ⟨t, ht, fk, hfk, rfl, rfl⟩

/-! ### Changing a schema in place

Nothing is checked here; positions beyond the last table are ignored. -/

/-- The schema with a further table at its end. -/
def addTable (s : Schema) (t : Table) : Schema :=
  { s with tables := s.tables ++ [t] }

/-- The schema without the table at a position. -/
def removeTable (s : Schema) (index : Nat) : Schema :=
  { s with tables := s.tables.eraseIdx index }

/-- The schema with the table at a position changed. -/
def modifyTable (s : Schema) (index : Nat) (change : Table → Table) : Schema :=
  { s with tables := s.tables.modify index change }

end Schema
end Overlay
