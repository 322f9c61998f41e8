import Mathlib.Data.List.Pairwise
import Overlay.Schema.Basic

/-!
# Looking tables and columns up

A look-up finds the first table or column with a name. If no two tables have the same name, it finds
the one that has it.
-/

namespace Overlay

open Text

/-- No two tables have the same name. -/
def Schema.DistinctTables (s : Schema) : Prop :=
  s.tables.Pairwise fun a b => sameName a.name b.name = false

/-- The table is the first with this name. -/
def Schema.First (s : Schema) (name : String) (t : Table) : Prop :=
  ∃ before after, s.tables = before ++ t :: after ∧
    (∀ u ∈ before, sameName u.name name = false) ∧ sameName t.name name = true

/-- Some column has this name. -/
def Table.HasColumn (t : Table) (name : String) : Prop :=
  ∃ c ∈ t.columns, sameName c.name name = true

section

variable {s : Schema} {t t' : Table} {name name' : String}

theorem Table.isSome_column?_iff : (t.column? name).isSome ↔ t.HasColumn name :=
  List.find?_isSome

theorem Schema.table?_eq_none_iff :
    s.table? name = none ↔ ∀ t ∈ s.tables, sameName t.name name = false := by
  simp [table?]

theorem Schema.table?_congr (h : sameName name name' = true) : s.table? name = s.table? name' := by
  have hlower : name.toLower = name'.toLower := sameName_iff.1 h
  simp only [table?, sameName, hlower]

theorem Schema.table?_eq_some_iff_first : s.table? name = some t ↔ s.First name t := by
  rw [table?, List.find?_eq_some_iff_append, First]
  constructor
  · rintro ⟨hname, before, after, htables, hbefore⟩
    exact ⟨before, after, htables, fun u hu => by simpa using hbefore u hu, hname⟩
  · rintro ⟨before, after, htables, hbefore, hname⟩
    exact ⟨hname, before, after, htables, fun u hu => by simp [hbefore u hu]⟩

theorem Schema.First.unique (h : s.First name t) (h' : s.First name t') : t = t' :=
  Option.some.inj ((table?_eq_some_iff_first.2 h).symm.trans (table?_eq_some_iff_first.2 h'))

/-- Two tables of a schema with distinct tables are equal if they have the same name. -/
theorem Schema.DistinctTables.eq_of_sameName (h : s.DistinctTables) (ht : t ∈ s.tables)
    (ht' : t' ∈ s.tables) (hname : sameName t.name t'.name = true) : t = t' := by
  have hsymm : Std.Symm fun a b : Table => sameName a.name b.name = false :=
    ⟨fun a b hab => sameName_comm b.name a.name ▸ hab⟩
  by_contra hne
  -- `Pairwise` speaks of the pairs in order; having different names is symmetric.
  have hfalse := List.Pairwise.forall h ht ht' hne
  rw [hname] at hfalse
  cases hfalse

theorem Schema.DistinctTables.table?_eq_some_iff (h : s.DistinctTables) :
    s.table? name = some t ↔ t ∈ s.tables ∧ sameName t.name name = true := by
  refine ⟨mem_of_table?, fun ⟨ht, hname⟩ => ?_⟩
  have hfound : (s.table? name).isSome := List.find?_isSome.2 ⟨t, ht, hname⟩
  obtain ⟨t', ht'⟩ := Option.isSome_iff_exists.1 hfound
  obtain ⟨hmem, hname'⟩ := mem_of_table? ht'
  have hsame : sameName t'.name t.name = true :=
    sameName_trans hname' (sameName_comm name t.name ▸ hname)
  rw [← h.eq_of_sameName hmem ht hsame]
  exact ht'

end

end Overlay
