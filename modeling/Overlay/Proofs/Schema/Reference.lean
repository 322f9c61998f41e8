import Overlay.Proofs.Schema.Lookup
import Overlay.Proofs.Sequence
import Overlay.Schema.Reference

/-!
# Resolved references

Resolving succeeds if every reference says what columns it means, be it by its target
(`Schema.Resolvable`), and then gives the schema in which every reference lists these columns
(`Schema.resolved`). Names, columns and primary keys stay as they are, so that a resolved schema is
resolved to itself.
-/

namespace Overlay

/-- The columns that a reference means: those it lists, else the primary key of its target. -/
def Schema.targetColumns? (s : Schema) (fk : ForeignKey) : Option (List String) :=
  if fk.targetColumns = [] then (s.table? fk.target).bind Table.primaryKey
  else some fk.targetColumns

/-- The reference with the columns that it means. -/
def ForeignKey.resolved (s : Schema) (fk : ForeignKey) : ForeignKey :=
  { fk with targetColumns := (s.targetColumns? fk).getD [] }

/-- The table with all references resolved. -/
def Table.resolved (s : Schema) (t : Table) : Table :=
  { t with foreignKeys := t.foreignKeys.map (ForeignKey.resolved s) }

/-- The schema with all references resolved. -/
def Schema.resolved (s : Schema) : Schema :=
  { s with tables := s.tables.map (Table.resolved s) }

/-- Every reference of the table says what columns it means. -/
def Table.Resolvable (s : Schema) (t : Table) : Prop :=
  ∀ fk ∈ t.foreignKeys, (s.targetColumns? fk).isSome

/-- Every reference of the schema says what columns it means. -/
def Schema.Resolvable (s : Schema) : Prop :=
  ∀ t ∈ s.tables, t.Resolvable s

section

variable {s s' : Schema} {t t' : Table} {fk fk' : ForeignKey} {owner : String}

theorem ForeignKey.resolve_eq_ok_iff :
    fk.resolve s owner = .ok fk' ↔ (s.targetColumns? fk).isSome ∧ fk' = fk.resolved s := by
  obtain ⟨columns, target, targetColumns⟩ := fk
  unfold resolve resolved Schema.targetColumns?
  cases targetColumns with
  | cons name names => simp [eq_comm]
  | nil =>
    cases s.table? target with
    | none => simp
    | some other => cases h : other.primaryKey <;> simp [h, eq_comm]

theorem Table.resolve_eq_ok_iff :
    t.resolve s = .ok t' ↔ t.Resolvable s ∧ t' = t.resolved s := by
  rw [resolve, bind_eq_ok_iff]
  simp only [mapM_eq_ok_iff_eq_map fun _ _ _ => ForeignKey.resolve_eq_ok_iff, Except.ok.injEq]
  constructor
  · rintro ⟨_, ⟨h, rfl⟩, rfl⟩
    exact ⟨h, rfl⟩
  · rintro ⟨h, rfl⟩
    exact ⟨_, ⟨h, rfl⟩, rfl⟩

theorem Schema.resolve_eq_ok_iff : s.resolve = .ok s' ↔ s.Resolvable ∧ s' = s.resolved := by
  rw [resolve, bind_eq_ok_iff]
  simp only [mapM_eq_ok_iff_eq_map fun _ _ _ => Table.resolve_eq_ok_iff, Except.ok.injEq]
  constructor
  · rintro ⟨_, ⟨h, rfl⟩, rfl⟩
    exact ⟨h, rfl⟩
  · rintro ⟨h, rfl⟩
    exact ⟨_, ⟨h, rfl⟩, rfl⟩

end

/-! ### What references depend on -/

section

variable {s s' : Schema}

/-- What a reference means depends on the names and primary keys of the tables only. -/
theorem Schema.targetColumns?_congr
    (h : s.tables.map (fun t => (t.name, t.primaryKey)) =
      s'.tables.map fun t => (t.name, t.primaryKey)) (fk : ForeignKey) :
    s.targetColumns? fk = s'.targetColumns? fk := by
  have hfind (s : Schema) (name : String) : (s.table? name).bind Table.primaryKey =
      ((s.tables.map fun t => (t.name, t.primaryKey)).find? fun entry =>
        Text.sameName entry.1 name).bind Prod.snd := by
    rw [List.find?_map, Option.bind_map]
    rfl
  rw [targetColumns?, hfind, h, ← hfind, targetColumns?]

theorem Table.resolved_congr (h : ∀ fk, s.targetColumns? fk = s'.targetColumns? fk) (t : Table) :
    t.resolved s = t.resolved s' := by
  have hfk : ForeignKey.resolved s = ForeignKey.resolved s' := by
    funext fk
    rw [ForeignKey.resolved, h, ForeignKey.resolved]
  rw [resolved, hfk, resolved]

end

/-! ### What resolving keeps -/

section

variable {s : Schema} {t : Table} {fk : ForeignKey} {name : String}

theorem Schema.table?_resolved :
    s.resolved.table? name = (s.table? name).map (Table.resolved s) := by
  simp only [table?, resolved, List.find?_map]
  rfl

theorem Schema.DistinctTables.resolved (h : s.DistinctTables) : s.resolved.DistinctTables :=
  List.pairwise_map.2 h

theorem Schema.targetColumns?_resolved (h : (s.targetColumns? fk).isSome) :
    s.resolved.targetColumns? (fk.resolved s) = s.targetColumns? fk := by
  have hkey : (s.resolved.table? fk.target).bind Table.primaryKey =
      (s.table? fk.target).bind Table.primaryKey := by
    rw [table?_resolved, Option.bind_map]
    rfl
  obtain ⟨names, hnames⟩ := Option.isSome_iff_exists.1 h
  have hresolved : fk.resolved s = { fk with targetColumns := names } := by
    rw [ForeignKey.resolved, hnames, Option.getD_some]
  rw [hresolved, hnames, targetColumns?]
  split
  · next hnil =>
    rw [hkey]
    unfold targetColumns? at hnames
    split at hnames
    · exact hnames
    · next hne => exact absurd ((Option.some.inj hnames).trans hnil) hne
  · rfl

theorem ForeignKey.resolved_resolved (h : (s.targetColumns? fk).isSome) :
    (fk.resolved s).resolved s.resolved = fk.resolved s := by
  rw [ForeignKey.resolved, Schema.targetColumns?_resolved h]
  rfl

theorem Schema.Resolvable.resolved (h : s.Resolvable) : s.resolved.Resolvable := by
  intro t' ht' fk' hfk'
  obtain ⟨t, ht, rfl⟩ := List.mem_map.1 ht'
  obtain ⟨fk, hfk, rfl⟩ := List.mem_map.1 hfk'
  rw [targetColumns?_resolved (h t ht fk hfk)]
  exact h t ht fk hfk

theorem Schema.Resolvable.resolved_resolved (h : s.Resolvable) :
    s.resolved.resolved = s.resolved := by
  have htable (t : Table) (ht : t ∈ s.tables) :
      (t.resolved s).resolved s.resolved = t.resolved s := by
    simp only [Table.resolved, List.map_map, Table.mk.injEq, true_and]
    exact List.map_congr_left fun fk hfk => ForeignKey.resolved_resolved (h t ht fk hfk)
  have htables : s.resolved.tables.map (Table.resolved s.resolved) = s.resolved.tables := by
    rw [Schema.resolved, List.map_map]
    exact List.map_congr_left htable
  exact congrArg (Schema.mk s.name) htables

/-- Resolving a resolved schema changes nothing. -/
theorem Schema.resolve_of_resolve {s s' : Schema} (h : s.resolve = .ok s') :
    s'.resolve = .ok s' := by
  obtain ⟨hs, rfl⟩ := resolve_eq_ok_iff.1 h
  exact resolve_eq_ok_iff.2 ⟨hs.resolved, hs.resolved_resolved.symm⟩

end

end Overlay
