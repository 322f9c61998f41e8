import Overlay.Proofs.Schema.Lookup

/-!
# Names that differ

Names are different if no two of them are the same, and a name denotes a column of a table if no
other column has it. A name that is put behind others keeps them different, and denotes the column
behind the others, exactly if none of them has it (`distinctNames_append_singleton_iff`,
`Table.denotes_iff_of_append`).
-/

namespace Overlay

open Text

/-- No two of the names are the same. -/
def DistinctNames (names : List String) : Prop :=
  names.Pairwise fun a b => sameName a b = false

instance (names : List String) : Decidable (DistinctNames names) :=
  inferInstanceAs (Decidable (names.Pairwise fun a b => sameName a b = false))

/-- No two columns have the same name. -/
def Table.DistinctColumns (t : Table) : Prop :=
  DistinctNames t.columnNames

instance (t : Table) : Decidable t.DistinctColumns :=
  inferInstanceAs (Decidable (DistinctNames t.columnNames))

/-- One column has this name, the column `c`. -/
def Table.Denotes (t : Table) (name : String) (c : Column) : Prop :=
  (t.columns.filter fun column => sameName column.name name) = [c]

section

variable {name : String} {names : List String} {t : Table} {c : Column} {columns : List Column}

theorem distinctNames_append_singleton_iff :
    DistinctNames (names ++ [name]) ↔
      DistinctNames names ∧ ∀ other ∈ names, sameName other name = false := by
  rw [DistinctNames, List.pairwise_append, DistinctNames]
  simp

/-- A name that is repeated is the same as itself. -/
theorem DistinctNames.length_le_one_of_replicate {n : Nat}
    (h : DistinctNames (List.replicate n name)) : n ≤ 1 := by
  match n, h with
  | 0, _ => exact Nat.zero_le 1
  | 1, _ => exact Nat.le_refl 1
  | n + 2, h =>
    have hself : sameName name name = false :=
      (List.pairwise_cons.1 h).1 name (List.mem_cons_self ..)
    rw [sameName_refl] at hself
    cases hself

theorem Table.not_hasColumn_iff :
    ¬t.HasColumn name ↔ ∀ other ∈ t.columnNames, sameName other name = false := by
  simp [HasColumn, columnNames]

/-- The last column is denoted by its name exactly if no other column has the name. -/
theorem Table.denotes_iff_of_append (h : t.columns = columns ++ [c]) :
    t.Denotes c.name c ↔ ∀ column ∈ columns, sameName column.name c.name = false := by
  have hself : [c].filter (fun column => sameName column.name c.name) = [c] := by
    simp [sameName_refl]
  rw [Denotes, h, List.filter_append, hself, List.append_left_eq_self, List.filter_eq_nil_iff]
  simp only [Bool.not_eq_true]

end

end Overlay
