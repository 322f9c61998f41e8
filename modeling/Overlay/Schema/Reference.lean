import Overlay.Error
import Overlay.Schema.Basic

/-!
# Resolving references

A foreign key may leave out the columns of its target; resolving fills in the primary key of the
target. Targets are looked up in the schema as it was given, and a failure leaves no trace: either
every foreign key is resolved or there is no result.
-/

namespace Overlay

/-- What the foreign key `fk` of the table `owner` becomes when it is resolved in `s`. -/
def ForeignKey.resolve (s : Schema) (owner : String) (fk : ForeignKey) : Except Error ForeignKey :=
  if fk.targetColumns.isEmpty then
    match s.table? fk.target with
    | none => .error (.foreignKey owner (.missingTarget fk.target))
    | some target =>
      match target.primaryKey with
      | none => .error (.foreignKey owner (.targetWithoutKey target.name))
      | some key => .ok { fk with targetColumns := key }
  else .ok fk

/-- The table with its foreign keys resolved in `s`; the first that cannot be is the error. -/
def Table.resolve (s : Schema) (t : Table) : Except Error Table := do
  let foreignKeys ← t.foreignKeys.mapM (ForeignKey.resolve s t.name)
  .ok { t with foreignKeys }

/-- The schema with the foreign keys of all tables resolved. -/
def Schema.resolve (s : Schema) : Except Error Schema := do
  let tables ← s.tables.mapM (Table.resolve s)
  .ok { s with tables }

end Overlay
