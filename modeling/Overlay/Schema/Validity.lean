import Overlay.Error
import Overlay.Schema.Basic

/-!
# Valid keys

A table is valid in a schema if its primary key, when it has one, names columns that can identify a
row, and each of its foreign keys points at a table of the schema and pairs columns of its own with
columns of that table. A table without primary key is valid.
-/

namespace Overlay

/-- The first column of `t` with this name. -/
def Table.requireColumn (t : Table) (name : String) : Except Error Column :=
  match t.column? name with
  | some column => .ok column
  | none => .error (.unknownColumn t.name name)

/-- Checks that the column exists and can identify a row. -/
def Table.checkKeyColumn (t : Table) (name : String) : Except Error Unit := do
  let column ← t.requireColumn name
  if column.type.canIdentifyRow then .ok ()
  else .error (.primaryKey t.name (.cannotIdentifyRow column.name column.type))

/-- Checks that the primary key, if there is one, consists of columns that can identify a row. -/
def Table.checkPrimaryKey (t : Table) : Except Error Unit :=
  match t.primaryKey with
  | none => .ok ()
  | some [] => .error (.primaryKey t.name .empty)
  | some key => key.forM t.checkKeyColumn

/-- Checks that a foreign key of `t` points at a table of `s` and pairs columns of the two. -/
def Table.checkForeignKey (s : Schema) (t : Table) (fk : ForeignKey) : Except Error Unit := do
  match s.table? fk.target with
  | none => .error (.foreignKey t.name (.missingTarget fk.target))
  | some target =>
    if fk.columns.isEmpty || fk.columns.length != fk.targetColumns.length then
      .error (.foreignKey t.name (.lengths fk.columns.length fk.targetColumns.length))
    else do
      fk.columns.forM fun name => discard (t.requireColumn name)
      fk.targetColumns.forM fun name => discard (target.requireColumn name)

/-- Checks the keys of a table, which need not be one of the tables of `s`. -/
def Schema.validateTable (s : Schema) (t : Table) : Except Error Unit := do
  t.checkPrimaryKey
  t.foreignKeys.forM (t.checkForeignKey s)

/-- Checks the keys of every table. -/
def Schema.validate (s : Schema) : Except Error Unit :=
  s.tables.forM s.validateTable

/-- A check of all items passes if the check of each item passes. -/
theorem forM_eq_ok_iff {α ε : Type} {check : α → Except ε Unit} {items : List α} :
    items.forM check = .ok () ↔ ∀ a ∈ items, check a = .ok () := by
  induction items with
  | nil => simp [pure, Except.pure]
  | cons a items ih =>
    rw [List.forM_eq_forM] at ih ⊢
    rw [List.forM_cons]
    cases h : check a with
    | error e => simp [bind, Except.bind, h]
    | ok u => simpa [bind, Except.bind, h] using ih

theorem Schema.validate_eq_ok_iff {s : Schema} :
    s.validate = .ok () ↔ ∀ t ∈ s.tables, s.validateTable t = .ok () :=
  forM_eq_ok_iff

end Overlay
