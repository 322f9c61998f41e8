import Overlay.Proofs.Schema.Lookup
import Overlay.Proofs.Sequence
import Overlay.Schema.Validity

/-!
# Tables with valid keys

The check of a table passes if its keys name what they should (`Table.WellKeyed`).
-/

namespace Overlay

/-- The first column with this name can identify a row. -/
def Table.HasKeyColumn (t : Table) (name : String) : Prop :=
  ∃ c, t.column? name = some c ∧ c.type.canIdentifyRow = true

/-- A reference pairs columns of `t` with columns of a table of `s`. -/
structure ForeignKey.Valid (s : Schema) (t : Table) (fk : ForeignKey) (target : Table) : Prop where
  found : s.table? fk.target = some target
  columns_ne_nil : fk.columns ≠ []
  length_eq : fk.columns.length = fk.targetColumns.length
  columns : ∀ name ∈ fk.columns, t.HasColumn name
  targetColumns : ∀ name ∈ fk.targetColumns, target.HasColumn name

theorem ForeignKey.Valid.targetColumns_ne_nil {s : Schema} {t target : Table} {fk : ForeignKey}
    (h : fk.Valid s t target) : fk.targetColumns ≠ [] := by
  rw [← List.length_pos_iff, ← h.length_eq, List.length_pos_iff]
  exact h.columns_ne_nil

/-- The primary key, if there is one, names columns that can identify a row, and every reference
pairs columns. -/
structure Table.WellKeyed (s : Schema) (t : Table) : Prop where
  primaryKey : ∀ key, t.primaryKey = some key → key ≠ [] ∧ ∀ name ∈ key, t.HasKeyColumn name
  foreignKeys : ∀ fk ∈ t.foreignKeys, ∃ target, fk.Valid s t target

/-- The keys of all tables are valid. -/
def Schema.WellKeyed (s : Schema) : Prop :=
  ∀ t ∈ s.tables, t.WellKeyed s

section

variable {s : Schema} {t : Table} {fk : ForeignKey} {name : String}

theorem Table.checkKeyColumn_eq_ok_iff : t.checkKeyColumn name = .ok () ↔ t.HasKeyColumn name := by
  unfold checkKeyColumn requireColumn HasKeyColumn
  cases t.column? name <;> simp

theorem Table.checkPrimaryKey_eq_ok_iff :
    t.checkPrimaryKey = .ok () ↔
      ∀ key, t.primaryKey = some key → key ≠ [] ∧ ∀ name ∈ key, t.HasKeyColumn name := by
  unfold checkPrimaryKey
  cases t.primaryKey with
  | none => simp
  | some key => cases key <;> simp [← forM_eq_ok_iff, ← checkKeyColumn_eq_ok_iff]

theorem Table.discard_requireColumn_eq_ok_iff :
    discard (t.requireColumn name) = .ok () ↔ t.HasColumn name := by
  rw [← isSome_column?_iff, requireColumn]
  cases t.column? name <;> simp [discard, Functor.discard, Functor.mapConst, Except.map]

theorem Table.checkForeignKey_eq_ok_iff :
    t.checkForeignKey s fk = .ok () ↔ ∃ target, fk.Valid s t target := by
  unfold checkForeignKey
  cases h : s.table? fk.target with
  | none =>
    simp only [reduceCtorEq, false_iff, not_exists]
    intro target hvalid
    rw [hvalid.found] at h
    cases h
  | some target =>
    by_cases hlength : fk.columns.isEmpty || fk.columns.length != fk.targetColumns.length
    · simp only [hlength, if_true, reduceCtorEq, false_iff, not_exists]
      intro target' hvalid
      simp [hvalid.columns_ne_nil, hvalid.length_eq] at hlength
    · simp only [hlength, Bool.false_eq_true, if_false, bind_eq_ok_iff, forM_eq_ok_iff,
        discard_requireColumn_eq_ok_iff]
      simp only [Bool.or_eq_true, List.isEmpty_iff, bne_iff_ne, not_or, not_not] at hlength
      constructor
      · rintro ⟨⟨⟩, hcolumns, htarget⟩
        exact ⟨target, h, hlength.1, hlength.2,
          fun name hname => discard_requireColumn_eq_ok_iff.1 (forM_eq_ok_iff.1 hcolumns name hname),
          htarget⟩
      · rintro ⟨target', hvalid⟩
        obtain rfl := Option.some.inj (h.symm.trans hvalid.found)
        exact ⟨(), forM_eq_ok_iff.2 fun name hname =>
          discard_requireColumn_eq_ok_iff.2 (hvalid.columns name hname), hvalid.targetColumns⟩

theorem Schema.validateTable_eq_ok_iff : s.validateTable t = .ok () ↔ t.WellKeyed s := by
  rw [validateTable, bind_eq_ok_iff]
  simp only [forM_eq_ok_iff, Table.checkForeignKey_eq_ok_iff]
  constructor
  · rintro ⟨⟨⟩, hprimary, hforeign⟩
    exact ⟨Table.checkPrimaryKey_eq_ok_iff.1 hprimary, hforeign⟩
  · rintro ⟨hprimary, hforeign⟩
    exact ⟨(), Table.checkPrimaryKey_eq_ok_iff.2 hprimary, hforeign⟩

theorem Schema.validate_eq_ok_iff_wellKeyed : s.validate = .ok () ↔ s.WellKeyed := by
  rw [validate_eq_ok_iff]
  exact forall₂_congr fun _ _ => validateTable_eq_ok_iff

end

end Overlay
