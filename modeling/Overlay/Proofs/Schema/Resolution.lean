import Overlay.Proofs.Schema.InPlace

/-!
# What resolving does

Resolving a schema fails at the first reference that leaves out its columns and has no target with a
primary key, and then leaves the schema as it was. Otherwise it fills in the columns of the
references that leave them out and changes nothing else, and a second time it changes nothing at all
(`Schema.resolvesExactly`). The schema may be one that nobody has checked: several tables may have
one name, and keys may be empty.
-/

namespace Overlay

open Text

/-! ### When resolving fails -/

/-- All foreign keys with the tables that own them, table by table. -/
def Schema.references (s : Schema) : List (Table × ForeignKey) :=
  s.tables.flatMap fun t => t.foreignKeys.map fun fk => (t, fk)

/-- The columns of the target are left out, and there is nothing that they could stand for. -/
inductive ForeignKey.Unresolvable (s : Schema) (fk : ForeignKey) : ReferenceFault → Prop where
  /-- No table has the name of the target. -/
  | missingTarget (left : fk.targetColumns = [])
      (missing : ∀ t ∈ s.tables, sameName t.name fk.target = false) :
      Unresolvable s fk (.missingTarget fk.target)
  /-- The first table with the name of the target has no primary key. -/
  | targetWithoutKey {target : Table} (left : fk.targetColumns = [])
      (first : s.First fk.target target) (key : target.primaryKey = none) :
      Unresolvable s fk (.targetWithoutKey target.name)

section

variable {s : Schema} {t : Table} {fk : ForeignKey} {owner : String} {e : Error}

theorem ForeignKey.resolve_eq_error_iff :
    fk.resolve s owner = .error e ↔
      ∃ fault, fk.Unresolvable s fault ∧ e = .foreignKey owner fault := by
  constructor
  · intro h
    unfold resolve at h
    split at h
    · next hempty =>
      have hleft := List.isEmpty_iff.1 hempty
      cases hfound : s.table? fk.target with
      | none =>
        have hmissing := Schema.table?_eq_none_iff.1 hfound
        rw [hfound] at h
        exact ⟨_, .missingTarget hleft hmissing, (Except.error.inj h).symm⟩
      | some target =>
        rw [hfound] at h
        cases hkey : target.primaryKey with
        | none =>
          simp only [hkey, Except.error.injEq] at h
          exact ⟨_, .targetWithoutKey hleft (Schema.table?_eq_some_iff_first.1 hfound) hkey, h.symm⟩
        | some key =>
          simp only [hkey] at h
          cases h
    · cases h
  · rintro ⟨fault, hfault, rfl⟩
    cases hfault with
    | missingTarget hleft hmissing =>
      simp [resolve, hleft, Schema.table?_eq_none_iff.2 hmissing]
    | targetWithoutKey hleft hfirst hkey =>
      simp [resolve, hleft, Schema.table?_eq_some_iff_first.2 hfirst, hkey]

theorem ForeignKey.exists_resolve_iff :
    (∃ fk', fk.resolve s owner = .ok fk') ↔ ∀ fault, ¬fk.Unresolvable s fault := by
  have herror : (∃ e, fk.resolve s owner = .error e) ↔ ∃ fault, fk.Unresolvable s fault := by
    simp [resolve_eq_error_iff]
  rw [← not_exists, ← herror]
  cases fk.resolve s owner <;> simp

/-- Resolving a table fails at its first reference that cannot be resolved. -/
theorem Table.exists_unresolvable_of_resolve (h : t.resolve s = .error e) :
    ∃ before fk after fault, t.foreignKeys = before ++ fk :: after ∧
      (∀ fk' ∈ before, ∀ fault, ¬fk'.Unresolvable s fault) ∧ fk.Unresolvable s fault ∧
        e = .foreignKey t.name fault := by
  rw [resolve, bind_ok_eq_error_iff] at h
  obtain ⟨before, fk, after, hkeys, hbefore, hfk⟩ := mapM_eq_error_iff.1 h
  obtain ⟨fault, hfault, rfl⟩ := ForeignKey.resolve_eq_error_iff.1 hfk
  exact ⟨before, fk, after, fault, hkeys,
    fun fk' hfk' => ForeignKey.exists_resolve_iff.1 (hbefore fk' hfk'), hfault, rfl⟩

theorem Table.not_unresolvable_of_resolve {t' : Table} (h : t.resolve s = .ok t')
    (hfk : fk ∈ t.foreignKeys) (fault : ReferenceFault) : ¬fk.Unresolvable s fault := by
  obtain ⟨hresolvable, -⟩ := resolve_eq_ok_iff.1 h
  have hok : fk.resolve s t.name = .ok (fk.resolved s) :=
    ForeignKey.resolve_eq_ok_iff.2 ⟨hresolvable fk hfk, rfl⟩
  exact ForeignKey.exists_resolve_iff.1 ⟨_, hok⟩ fault

/-- Resolving a schema fails at its first reference that cannot be resolved. -/
theorem Schema.exists_unresolvable_of_resolve (h : s.resolve = .error e) :
    ∃ before t fk after fault, s.references = before ++ (t, fk) :: after ∧
      (∀ reference ∈ before, ∀ fault, ¬reference.2.Unresolvable s fault) ∧
        fk.Unresolvable s fault ∧ e = .foreignKey t.name fault := by
  rw [resolve, bind_ok_eq_error_iff] at h
  obtain ⟨before, t, after, htables, hbefore, ht⟩ := mapM_eq_error_iff.1 h
  obtain ⟨keysBefore, fk, keysAfter, fault, hkeys, hkeysBefore, hfault, he⟩ :=
    Table.exists_unresolvable_of_resolve ht
  have hreferences : s.references =
      (before.flatMap (fun u => u.foreignKeys.map fun fk => (u, fk)) ++ keysBefore.map (t, ·)) ++
        (t, fk) :: (keysAfter.map (t, ·) ++
          after.flatMap fun u => u.foreignKeys.map fun fk => (u, fk)) := by
    rw [references, htables]
    simp [hkeys]
  refine ⟨_, t, fk, _, fault, hreferences, ?_, hfault, he⟩
  intro reference hreference
  rcases List.mem_append.1 hreference with hmem | hmem
  · obtain ⟨u, hu, hmap⟩ := List.mem_flatMap.1 hmem
    obtain ⟨fk', hfk', rfl⟩ := List.mem_map.1 hmap
    obtain ⟨u', hu'⟩ := hbefore u hu
    exact Table.not_unresolvable_of_resolve hu' hfk'
  · obtain ⟨fk', hfk', rfl⟩ := List.mem_map.1 hmem
    exact hkeysBefore fk' hfk'

theorem Schema.not_unresolvable_of_resolve {s' : Schema} (h : s.resolve = .ok s')
    {reference : Table × ForeignKey} (hreference : reference ∈ s.references)
    (fault : ReferenceFault) : ¬reference.2.Unresolvable s fault := by
  obtain ⟨hresolvable, -⟩ := resolve_eq_ok_iff.1 h
  obtain ⟨t, ht, hmap⟩ := List.mem_flatMap.1 hreference
  obtain ⟨fk, hfk, rfl⟩ := List.mem_map.1 hmap
  have hok : t.resolve s = .ok (t.resolved s) := Table.resolve_eq_ok_iff.2 ⟨hresolvable t ht, rfl⟩
  exact Table.not_unresolvable_of_resolve hok hfk fault

end

/-! ### What resolving changes -/

/-- The reference with its columns filled in, if it left them out: with the primary key of the first
table that has the name of its target. -/
structure ForeignKey.FilledIn (s : Schema) (fk fk' : ForeignKey) : Prop where
  columns : fk'.columns = fk.columns
  target : fk'.target = fk.target
  kept : fk.targetColumns ≠ [] → fk'.targetColumns = fk.targetColumns
  filled : fk.targetColumns = [] →
    ∃ target, s.First fk.target target ∧ target.primaryKey = some fk'.targetColumns

/-- The table with the columns of its references filled in. -/
structure Table.FilledIn (s : Schema) (t t' : Table) : Prop where
  name : t'.name = t.name
  columns : t'.columns = t.columns
  primaryKey : t'.primaryKey = t.primaryKey
  foreignKeys : List.Forall₂ (ForeignKey.FilledIn s) t.foreignKeys t'.foreignKeys

/-- The schema with the columns of all references filled in, looked up in `s`. -/
structure Schema.FilledIn (s s' : Schema) : Prop where
  name : s'.name = s.name
  tables : List.Forall₂ (Table.FilledIn s) s.tables s'.tables

section

variable {s : Schema} {t : Table} {fk : ForeignKey}

theorem ForeignKey.filledIn_resolved (h : (s.targetColumns? fk).isSome) :
    fk.FilledIn s (fk.resolved s) where
  columns := rfl
  target := rfl
  kept hne := by simp [resolved, Schema.targetColumns?, hne]
  filled hleft := by
    obtain ⟨columns, hcolumns⟩ := Option.isSome_iff_exists.1 h
    have hresolved : (fk.resolved s).targetColumns = columns := by
      rw [resolved, hcolumns, Option.getD_some]
    rw [Schema.targetColumns?, if_pos hleft, Option.bind_eq_some_iff] at hcolumns
    obtain ⟨target, hfound, hkey⟩ := hcolumns
    exact ⟨target, Schema.table?_eq_some_iff_first.1 hfound, hresolved ▸ hkey⟩

theorem Table.Resolvable.filledIn (h : t.Resolvable s) : t.FilledIn s (t.resolved s) where
  name := rfl
  columns := rfl
  primaryKey := rfl
  foreignKeys := by
    rw [resolved, List.forall₂_map_right_iff, List.forall₂_same]
    exact fun fk hfk => ForeignKey.filledIn_resolved (h fk hfk)

theorem Schema.Resolvable.filledIn (h : s.Resolvable) : s.FilledIn s.resolved where
  name := rfl
  tables := by
    rw [Schema.resolved, List.forall₂_map_right_iff, List.forall₂_same]
    exact fun t ht => Table.Resolvable.filledIn (h t ht)

end

/-! ### Resolving -/

/-- What resolving a schema that is kept in a variable does to the variable. -/
structure Schema.ResolvesExactly (s : Schema) : Prop where
  /-- The result is that of resolving, and of a failure nothing is left. -/
  ok_iff : ∀ s', resolveInPlace.run s = .ok () s' ↔ s.resolve = .ok s'
  error_iff : ∀ e s', resolveInPlace.run s = .error e s' ↔ s.resolve = .error e ∧ s' = s
  /-- It fails if some reference cannot be resolved. -/
  fails_iff : (∃ e s', resolveInPlace.run s = .error e s') ↔
    ∃ reference ∈ s.references, ∃ fault, reference.2.Unresolvable s fault
  /-- The error is that of the first reference that cannot be resolved. -/
  first : ∀ e s', resolveInPlace.run s = .error e s' →
    ∃ before t fk after fault, s.references = before ++ (t, fk) :: after ∧
      (∀ reference ∈ before, ∀ fault, ¬reference.2.Unresolvable s fault) ∧
        fk.Unresolvable s fault ∧ e = .foreignKey t.name fault
  filledIn : ∀ s', resolveInPlace.run s = .ok () s' → s.FilledIn s'
  /-- A second time nothing changes. -/
  again : ∀ s', resolveInPlace.run s = .ok () s' → resolveInPlace.run s' = .ok () s'

/-- Resolving fails at the first reference that cannot be resolved and leaves the schema as it was;
otherwise it fills in the columns that are left out and changes nothing else. -/
theorem Schema.resolvesExactly (s : Schema) : s.ResolvesExactly := by
  have hok (s s' : Schema) : resolveInPlace.run s = .ok () s' ↔ s.resolve = .ok s' := by
    rw [run_resolveInPlace]
    cases s.resolve <;> simp
  have herror (e : Error) (s' : Schema) :
      resolveInPlace.run s = .error e s' ↔ s.resolve = .error e ∧ s' = s := by
    rw [run_resolveInPlace]
    cases s.resolve <;> simp [eq_comm]
  have hfirst (e : Error) (s' : Schema) (h : resolveInPlace.run s = .error e s') :=
    exists_unresolvable_of_resolve ((herror e s').1 h).1
  refine ⟨hok s, herror, ⟨?_, ?_⟩, hfirst, fun s' h => ?_, fun s' h => ?_⟩
  · rintro ⟨e, s', h⟩
    obtain ⟨before, t, fk, after, fault, hreferences, -, hfault, -⟩ := hfirst e s' h
    exact ⟨(t, fk), by simp [hreferences], fault, hfault⟩
  · rintro ⟨reference, hreference, fault, hfault⟩
    cases hresolve : s.resolve with
    | error e => exact ⟨e, s, (herror e s).2 ⟨hresolve, rfl⟩⟩
    | ok s' => exact absurd hfault (not_unresolvable_of_resolve hresolve hreference fault)
  · obtain ⟨hresolvable, rfl⟩ := resolve_eq_ok_iff.1 ((hok s s').1 h)
    exact hresolvable.filledIn
  · exact (hok s' s').2 (resolve_of_resolve ((hok s s').1 h))

end Overlay
