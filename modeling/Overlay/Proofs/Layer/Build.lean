import Overlay.Layer.Basic
import Overlay.Proofs.SchemaText.Acceptance

/-!
# Building layers

In a schema with valid keys only two things stand against the layer of a table: that there is no
such table and that it has no primary key. A schema that was read from a text has valid keys and
distinct tables, so that looking a table up by its own name finds it again and the layers of all
tables are the layers of the tables one by one (`Schema.builds_of_read`).
-/

namespace Overlay

open Text

/-! ### One layer -/

section

variable {s : Schema} {config : Config} {t : Table} {name : String} {l : Layer Plan} {e : Error}

@[simp] theorem Column.name_shadow (key : List String) (c : Column) :
    (c.shadow key).name = c.name := by
  unfold shadow
  split <;> rfl

@[simp] theorem Column.type_shadow (key : List String) (c : Column) :
    (c.shadow key).type = c.type := by
  unfold shadow
  split <;> rfl

theorem Table.rowKey?_of_wellKeyed (h : t.WellKeyed s) : t.rowKey? = t.primaryKey := by
  cases hkey : t.primaryKey with
  | none => simp [rowKey?, hkey]
  | some key => exact rowKey?_eq_some_iff.2 ⟨hkey, (h.primaryKey key hkey).1⟩

namespace Schema

theorem layer_of_table?_eq_none (h : s.table? name = none) :
    s.layer config name = .error (.unknownTable name) := by
  simp [layer, h]

theorem layer_of_rowKey?_eq_none (h : s.table? name = some t) (hkey : t.rowKey? = none) :
    s.layer config name = .error (.missingPrimaryKey t.name) := by
  simp [layer, h, hkey]

/-- A table with a key has its layer if it and the tables that refer to it pass their checks. -/
theorem layer_of_rowKey?_eq_some {key : List String} (config : Config) (h : s.table? name = some t)
    (hkey : t.rowKey? = some key) :
    s.layer config name = s.validateTable t >>= fun _ =>
      (s.referencing t.name).forM (s.validateTable ·.1) >>= fun _ =>
        .ok (t.layer config s key) := by
  unfold layer
  rw [h]
  simp only [hkey]

/-- A layer is built of a table with a key if its keys are valid and those of all tables that refer
to it. -/
theorem layer_eq_ok_iff :
    s.layer config name = .ok l ↔
      ∃ t key, s.table? name = some t ∧ t.rowKey? = some key ∧ t.WellKeyed s ∧
        (∀ owner fk, (owner, fk) ∈ s.referencing t.name → owner.WellKeyed s) ∧
        l = t.layer config s key := by
  unfold layer
  cases htable : s.table? name with
  | none => simp
  | some t =>
    cases hkey : t.rowKey? with
    | none => simp [hkey]
    | some key =>
      simp only [hkey, bind_eq_ok_iff, Except.ok.injEq, Option.some.injEq]
      constructor
      · rintro ⟨⟨⟩, ht, ⟨⟩, howners, rfl⟩
        exact ⟨t, key, rfl, hkey, validateTable_eq_ok_iff.1 ht, fun owner fk hmem =>
          validateTable_eq_ok_iff.1 (forM_eq_ok_iff.1 howners (owner, fk) hmem), rfl⟩
      · rintro ⟨_, _, rfl, hkey', ht, howners, rfl⟩
        obtain rfl := Option.some.inj (hkey.symm.trans hkey')
        exact ⟨(), validateTable_eq_ok_iff.2 ht, (), forM_eq_ok_iff.2 fun (owner, fk) hmem =>
          validateTable_eq_ok_iff.2 (howners owner fk hmem), rfl⟩

variable (hkeyed : s.WellKeyed)

include hkeyed

theorem WellKeyed.layer_of_primaryKey {key : List String} (h : s.table? name = some t)
    (hkey : t.primaryKey = some key) : s.layer config name = .ok (t.layer config s key) := by
  have ht := hkeyed t (mem_of_table? h).1
  refine layer_eq_ok_iff.2 ⟨t, key, h, (Table.rowKey?_of_wellKeyed ht).trans hkey, ht, ?_, rfl⟩
  exact fun owner fk hmem => hkeyed owner (mem_referencing.1 hmem).1

theorem WellKeyed.layer_of_primaryKey_eq_none (h : s.table? name = some t)
    (hkey : t.primaryKey = none) : s.layer config name = .error (.missingPrimaryKey t.name) :=
  layer_of_rowKey?_eq_none h
    ((Table.rowKey?_of_wellKeyed (hkeyed t (mem_of_table? h).1)).trans hkey)

theorem WellKeyed.layer_eq_ok_iff_of_table? (h : s.table? name = some t) :
    s.layer config name = .ok l ↔
      t.primaryKey.isSome ∧ l = t.layer config s (t.primaryKey.getD []) := by
  cases hkey : t.primaryKey with
  | none => simp [hkeyed.layer_of_primaryKey_eq_none h hkey]
  | some key => simp [hkeyed.layer_of_primaryKey h hkey, eq_comm]

end Schema

end

/-! ### Schemas with valid keys and distinct tables -/

namespace Schema.WellKeyed

variable {s : Schema} {config : Config} {t : Table} {name : String} {l : Layer Plan} {e : Error}
  (hkeyed : s.WellKeyed) (hdistinct : s.DistinctTables)

include hkeyed hdistinct

theorem layer_eq_ok_iff (ht : t ∈ s.tables) (hname : sameName t.name name = true) :
    s.layer config name = .ok l ↔
      t.primaryKey.isSome ∧ l = t.layer config s (t.primaryKey.getD []) :=
  hkeyed.layer_eq_ok_iff_of_table? (hdistinct.table?_eq_some_iff.2 ⟨ht, hname⟩)

theorem layer_eq_error_iff :
    s.layer config name = .error e ↔
      (e = .unknownTable name ∧ ∀ t ∈ s.tables, sameName t.name name = false) ∨
        ∃ t ∈ s.tables, sameName t.name name = true ∧ t.primaryKey = none ∧
          e = .missingPrimaryKey t.name := by
  cases hfound : s.table? name with
  | none =>
    have hnone := table?_eq_none_iff.1 hfound
    rw [layer_of_table?_eq_none hfound, Except.error.injEq, eq_comm]
    constructor
    · exact fun h => .inl ⟨h, hnone⟩
    · rintro (⟨h, -⟩ | ⟨t, ht, hname, -⟩)
      · exact h
      · rw [hnone t ht] at hname
        cases hname
  | some t =>
    obtain ⟨ht, hname⟩ := mem_of_table? hfound
    constructor
    · intro h
      cases hkey : t.primaryKey with
      | none =>
        rw [hkeyed.layer_of_primaryKey_eq_none hfound hkey] at h
        exact .inr ⟨t, ht, hname, hkey, (Except.error.inj h).symm⟩
      | some key =>
        rw [hkeyed.layer_of_primaryKey hfound hkey] at h
        cases h
    · rintro (⟨-, hnone⟩ | ⟨u, hu, huname, hkey, rfl⟩)
      · rw [hnone t ht] at hname
        cases hname
      · exact hkeyed.layer_of_primaryKey_eq_none
          (hdistinct.table?_eq_some_iff.2 ⟨hu, huname⟩) hkey

theorem layers_eq_ok_iff {ls : List (Layer Plan)} :
    s.layers config = .ok ls ↔
      (∀ t ∈ s.tables, t.primaryKey.isSome) ∧
        ls = s.tables.map fun t => t.layer config s (t.primaryKey.getD []) :=
  mapM_eq_ok_iff_eq_map fun t ht _ => hkeyed.layer_eq_ok_iff hdistinct ht (sameName_refl t.name)

end Schema.WellKeyed

/-! ### All layers -/

namespace Schema

variable {s : Schema} {config : Config} {e : Error}

theorem survey_eq_map : s.survey config = s.tables.map fun t => (t, s.layer config t.name) := rfl

/-- Building all layers fails with the first failure of the survey. -/
theorem layers_eq_error_iff_survey :
    s.layers config = .error e ↔
      ∃ before t after, s.survey config = before ++ (t, .error e) :: after ∧
        ∀ entry ∈ before, ∃ l, entry.2 = .ok l := by
  rw [layers, mapM_eq_error_iff, survey_eq_map]
  constructor
  · rintro ⟨before, t, after, htables, hbefore, ht⟩
    refine ⟨before.map fun t => (t, s.layer config t.name), t,
      after.map fun t => (t, s.layer config t.name), ?_, ?_⟩
    · rw [htables, List.map_append, List.map_cons, ht]
    · rintro entry hentry
      obtain ⟨u, hu, rfl⟩ := List.mem_map.1 hentry
      exact hbefore u hu
  · rintro ⟨before, t, after, hsurvey, hbefore⟩
    obtain ⟨before, rest, htables, rfl, hrest⟩ := List.map_eq_append_iff.1 hsurvey
    obtain ⟨u, after, rfl, hu, rfl⟩ := List.map_eq_cons_iff.1 hrest
    obtain ⟨rfl, hlayer⟩ := Prod.mk.inj hu
    exact ⟨before, u, after, htables, fun x hx => hbefore _ (List.mem_map_of_mem hx), hlayer⟩

/-- What layers can be built of a schema: one for each table with a primary key, and all of them if
every table has one. -/
structure Builds (s : Schema) (config : Config) : Prop where
  /-- A layer is built for the name of a table with a primary key. -/
  layer_isOk : ∀ name, (∃ l, s.layer config name = .ok l) ↔
    ∃ t ∈ s.tables, sameName t.name name = true ∧ t.primaryKey.isSome
  layer_unknown : ∀ name, s.layer config name = .error (.unknownTable name) ↔
    ∀ t ∈ s.tables, sameName t.name name = false
  layer_missing : ∀ t ∈ s.tables, t.primaryKey = none → ∀ name, sameName t.name name = true →
    s.layer config name = .error (.missingPrimaryKey t.name)
  /-- There is no other error. -/
  layer_error : ∀ name e, s.layer config name = .error e → e = .unknownTable name ∨
    ∃ t ∈ s.tables, sameName t.name name = true ∧ t.primaryKey = none ∧
      e = .missingPrimaryKey t.name
  layers_isOk : (∃ ls, s.layers config = .ok ls) ↔ ∀ t ∈ s.tables, t.primaryKey.isSome
  /-- The layers are those of the tables, in order. -/
  layers_ok : ∀ ls, s.layers config = .ok ls →
    List.Forall₂ (fun t l => l.name = t.name ∧ l.columns = t.columns ∧
      t.primaryKey = some l.primaryKey) s.tables ls
  /-- The first table without primary key stands against all layers. -/
  layers_missing : ∀ before t after, s.tables = before ++ t :: after →
    (∀ u ∈ before, u.primaryKey.isSome) → t.primaryKey = none →
      s.layers config = .error (.missingPrimaryKey t.name)
  survey_tables : (s.survey config).map Prod.fst = s.tables
  survey_layer : ∀ entry ∈ s.survey config, entry.2 = s.layer config entry.1.name
  layers_error : ∀ e, s.layers config = .error e ↔
    ∃ before t after, s.survey config = before ++ (t, .error e) :: after ∧
      ∀ entry ∈ before, ∃ l, entry.2 = .ok l

/-- A schema with valid keys and distinct tables has the layers that its primary keys say. -/
theorem WellKeyed.builds (hkeyed : s.WellKeyed) (hdistinct : s.DistinctTables) (config : Config) :
    s.Builds config where
  layer_isOk name := by
    constructor
    · rintro ⟨l, hl⟩
      obtain ⟨t, key, hfound, hkey, -⟩ := Schema.layer_eq_ok_iff.1 hl
      obtain ⟨ht, hname⟩ := mem_of_table? hfound
      exact ⟨t, ht, hname, Option.isSome_of_eq_some (Table.rowKey?_eq_some_iff.1 hkey).1⟩
    · rintro ⟨t, ht, hname, hkey⟩
      exact ⟨_, (hkeyed.layer_eq_ok_iff hdistinct ht hname).2 ⟨hkey, rfl⟩⟩
  layer_unknown name := by
    rw [hkeyed.layer_eq_error_iff hdistinct]
    simp
  layer_missing t ht hkey name hname :=
    (hkeyed.layer_eq_error_iff hdistinct).2 (.inr ⟨t, ht, hname, hkey, rfl⟩)
  layer_error name e h := ((hkeyed.layer_eq_error_iff hdistinct).1 h).imp_left And.left
  layers_isOk := by
    simp only [hkeyed.layers_eq_ok_iff hdistinct]
    exact ⟨fun ⟨_, h, _⟩ => h, fun h => ⟨_, h, rfl⟩⟩
  layers_ok ls h := by
    obtain ⟨hkeys, rfl⟩ := (hkeyed.layers_eq_ok_iff hdistinct).1 h
    rw [List.forall₂_map_right_iff, List.forall₂_same]
    intro t ht
    obtain ⟨key, hkey⟩ := Option.isSome_iff_exists.1 (hkeys t ht)
    exact ⟨rfl, rfl, by simp [Table.layer, hkey]⟩
  layers_missing before t after htables hbefore hkey := by
    have hmem (u : Table) (hu : u ∈ before ++ [t]) : u ∈ s.tables := by
      rw [htables]
      simp only [List.mem_append, List.mem_singleton] at hu
      simp only [List.mem_append, List.mem_cons]
      tauto
    rw [layers, mapM_eq_error_iff]
    refine ⟨before, t, after, htables, fun u hu => ?_, ?_⟩
    · exact ⟨_, (hkeyed.layer_eq_ok_iff hdistinct (hmem u (by simp [hu])) (sameName_refl _)).2
        ⟨hbefore u hu, rfl⟩⟩
    · exact (hkeyed.layer_eq_error_iff hdistinct).2
        (.inr ⟨t, hmem t (by simp), sameName_refl _, hkey, rfl⟩)
  survey_tables := by
    rw [survey_eq_map, List.map_map]
    exact List.map_id'' (fun _ => rfl) _
  survey_layer entry hentry := by
    obtain ⟨t, -, rfl⟩ := List.mem_map.1 hentry
    rfl
  layers_error _ := layers_eq_error_iff_survey

/-- The schema that a text describes has distinct tables and valid keys, is its own resolution, and
has the layers that its primary keys say. -/
theorem builds_of_read {text : String} (h : read text = .ok s) :
    s.DistinctTables ∧ s.validate = .ok () ∧ s.resolve = .ok s ∧ ∀ config, s.Builds config := by
  obtain ⟨d, -, haccepted, hresolvable, rfl, hkeyed⟩ := read_eq_ok_iff.1 h
  have hdistinct := haccepted.distinctTables.resolved
  exact ⟨hdistinct, validate_eq_ok_iff_wellKeyed.2 hkeyed,
    resolve_of_resolve (resolve_eq_ok_iff.2 ⟨hresolvable, rfl⟩), hkeyed.builds hdistinct⟩

theorem builds_of_read_twoTables :
    ∃ s, read "schema s\ntable a\x7b\nk int primary_key\n\x7d\ntable b\x7b\nk int\n\x7d" = .ok s ∧
      s.layers {} = .error (.missingPrimaryKey "b") := by
  let column (nullable : Bool) : Column := { name := "k", type := .integer, nullable }
  have h : read "schema s\ntable a\x7b\nk int primary_key\n\x7d\ntable b\x7b\nk int\n\x7d" = .ok
      { name := "s"
        tables :=
          [{ name := "a", columns := [column false], primaryKey := some ["k"], foreignKeys := [] },
            { name := "b", columns := [column true], primaryKey := none, foreignKeys := [] }] } := by
    decide +kernel
  exact ⟨_, h, ((builds_of_read h).2.2.2 {}).layers_missing [_] _ [] rfl (by decide) rfl⟩

end Schema

end Overlay
