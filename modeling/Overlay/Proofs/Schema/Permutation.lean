import Overlay.Proofs.Schema.Reference
import Overlay.Proofs.Schema.Validity

/-!
# Tables in another order

If no two tables of a schema have the same name, their order decides no look-up. In a schema with
the same tables in another order (`Schema.Permuted`) the references therefore mean the same columns
and the same keys are valid.
-/

namespace Overlay

open Text

/-- The schema `s'` has the tables of `s` in another order. -/
structure Schema.Permuted (s s' : Schema) : Prop where
  name : s.name = s'.name
  tables : s.tables.Perm s'.tables

namespace Schema.Permuted

variable {s s' : Schema} {t target : Table} {fk : ForeignKey} {name : String}
  (h : s.Permuted s')

include h

theorem referencing_perm (name : String) : (s.referencing name).Perm (s'.referencing name) :=
  h.tables.flatMap_right _

theorem distinctTables (hdistinct : s.DistinctTables) : s'.DistinctTables :=
  hdistinct.perm h.tables fun hab => sameName_comm _ _ ▸ hab

variable (hdistinct : s.DistinctTables)

include hdistinct

/-! ### Look-ups -/

theorem table?_eq (name : String) : s.table? name = s'.table? name := by
  apply Option.ext
  intro t
  rw [hdistinct.table?_eq_some_iff, (h.distinctTables hdistinct).table?_eq_some_iff,
    h.tables.mem_iff]

theorem targetColumns?_eq (fk : ForeignKey) : s.targetColumns? fk = s'.targetColumns? fk := by
  rw [targetColumns?, h.table?_eq hdistinct, targetColumns?]

/-! ### Resolving -/

theorem table_resolved_eq (t : Table) : t.resolved s = t.resolved s' :=
  Table.resolved_congr (h.targetColumns?_eq hdistinct) t

theorem resolved : s.resolved.Permuted s'.resolved where
  name := h.name
  tables := by
    have htables : s.resolved.tables = s.tables.map (Table.resolved s') :=
      List.map_congr_left fun t _ => h.table_resolved_eq hdistinct t
    rw [htables]
    exact h.tables.map _

theorem resolvable (hs : s.Resolvable) : s'.Resolvable := by
  intro t ht fk hfk
  rw [← h.targetColumns?_eq hdistinct]
  exact hs t (h.tables.mem_iff.2 ht) fk hfk

/-! ### Keys -/

theorem foreignKey_valid (hfk : fk.Valid s t target) : fk.Valid s' t target :=
  { hfk with found := h.table?_eq hdistinct fk.target ▸ hfk.found }

theorem wellKeyed (hs : s.WellKeyed) : s'.WellKeyed := by
  intro t ht
  obtain ⟨hprimary, hforeign⟩ := hs t (h.tables.mem_iff.2 ht)
  refine ⟨hprimary, fun fk hfk => ?_⟩
  obtain ⟨target, hvalid⟩ := hforeign fk hfk
  exact ⟨target, h.foreignKey_valid hdistinct hvalid⟩

end Schema.Permuted

end Overlay
