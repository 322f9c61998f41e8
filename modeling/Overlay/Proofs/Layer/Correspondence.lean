import Overlay.Proofs.Layer.Relations
import Overlay.Proofs.Layer.Requirements

/-!
# Layers and the tables they are reported for

Layers are built table by table, but each table is looked up again by its name, and the first table
with the name is found. Valid keys do not make the names distinct. What is reported for a table
describes the first table of its name, and so the table itself exactly if the two agree
(`Schema.layers_describe_tables_iff`).
-/

namespace Overlay

open Text

/-! ### Tables and what is reported for them -/

/-- The layer has the name, the columns and the primary key of the table. -/
structure Table.DescribedBy (t : Table) (l : Layer Plan) : Prop where
  name : l.name = t.name
  columns : l.columns = t.columns
  primaryKey : t.primaryKey = some l.primaryKey

/-- A table gets a layer that describes it or an error, and an error if it has no primary key. -/
structure Table.ReportedBy (t : Table) (outcome : Except Error (Layer Plan)) : Prop where
  layer : ∀ l, outcome = .ok l → t.DescribedBy l
  error : t.primaryKey = none → ∃ e, outcome = .error e

/-- The tables have the same name, columns and primary key. -/
structure Table.Agrees (t u : Table) : Prop where
  name : t.name = u.name
  columns : t.columns = u.columns
  primaryKey : t.primaryKey = u.primaryKey

/-- The first table of the schema that has the name of `t`. -/
def Schema.namesake (s : Schema) (t : Table) : Table :=
  (s.table? t.name).getD t

section

variable {s : Schema} {config : Config} {t u : Table} {l : Layer Plan} {ls : List (Layer Plan)}

theorem Table.agrees_refl (t : Table) : t.Agrees t :=
  ⟨rfl, rfl, rfl⟩

theorem Table.describedBy_layer_iff (hkey : u.primaryKey.isSome) :
    t.DescribedBy (u.layer config s (u.primaryKey.getD [])) ↔ u.Agrees t := by
  obtain ⟨key, hu⟩ := Option.isSome_iff_exists.1 hkey
  constructor
  · rintro ⟨hname, hcolumns, hprimary⟩
    exact ⟨hname, hcolumns, by simpa [hu, layer] using hprimary.symm⟩
  · rintro ⟨hname, hcolumns, hprimary⟩
    exact ⟨hname, hcolumns, by simp [← hprimary, hu, layer]⟩

namespace Schema

theorem table?_name (ht : t ∈ s.tables) : s.table? t.name = some (s.namesake t) := by
  have hfound : (s.table? t.name).isSome := List.find?_isSome.2 ⟨t, ht, sameName_refl t.name⟩
  obtain ⟨u, hu⟩ := Option.isSome_iff_exists.1 hfound
  rw [namesake, hu, Option.getD_some]

theorem sameName_namesake (ht : t ∈ s.tables) : sameName (s.namesake t).name t.name = true :=
  (mem_of_table? (table?_name ht)).2

theorem First.eq_namesake (h : s.First t.name u) : u = s.namesake t := by
  rw [namesake, table?_eq_some_iff_first.2 h, Option.getD_some]

theorem first_namesake (ht : t ∈ s.tables) : s.First t.name (s.namesake t) :=
  table?_eq_some_iff_first.1 (table?_name ht)

theorem DistinctTables.namesake_eq (h : s.DistinctTables) (ht : t ∈ s.tables) :
    s.namesake t = t := by
  have hfound := h.table?_eq_some_iff.2 ⟨ht, sameName_refl t.name⟩
  exact Option.some.inj ((table?_name ht).symm.trans hfound)

/-- Names agree in pairs with those of the namesakes. -/
theorem sameName_namesake_namesake {v : Table} (ht : t ∈ s.tables) (hv : v ∈ s.tables) :
    sameName (s.namesake t).name (s.namesake v).name = sameName t.name v.name := by
  have hlower := sameName_iff.1 (sameName_namesake ht)
  have hlower' := sameName_iff.1 (sameName_namesake hv)
  rw [sameName, hlower, hlower', sameName]

/-! ### What is built for the tables of a schema with valid keys -/

variable (hkeyed : s.WellKeyed)

include hkeyed

theorem WellKeyed.layer_name_eq_ok_iff (ht : t ∈ s.tables) :
    s.layer config t.name = .ok l ↔ (s.namesake t).primaryKey.isSome ∧
      l = (s.namesake t).layer config s ((s.namesake t).primaryKey.getD []) :=
  hkeyed.layer_eq_ok_iff_of_table? (table?_name ht)

theorem WellKeyed.layers_eq_ok_iff_namesake :
    s.layers config = .ok ls ↔ (∀ t ∈ s.tables, (s.namesake t).primaryKey.isSome) ∧
      ls = s.tables.map fun t =>
        (s.namesake t).layer config s ((s.namesake t).primaryKey.getD []) :=
  mapM_eq_ok_iff_eq_map fun _ ht _ => hkeyed.layer_name_eq_ok_iff ht

theorem WellKeyed.reportedBy_iff (ht : t ∈ s.tables) :
    t.ReportedBy (s.layer config t.name) ↔
      ((s.namesake t).primaryKey.isSome → (s.namesake t).Agrees t) := by
  constructor
  · intro h hkey
    exact (Table.describedBy_layer_iff hkey).1
      (h.layer _ ((hkeyed.layer_name_eq_ok_iff ht).2 ⟨hkey, rfl⟩))
  · intro h
    have hlayer (l : Layer Plan) (hl : s.layer config t.name = .ok l) : t.DescribedBy l := by
      obtain ⟨hkey, rfl⟩ := (hkeyed.layer_name_eq_ok_iff ht).1 hl
      exact (Table.describedBy_layer_iff hkey).2 (h hkey)
    refine ⟨hlayer, fun hnone => ?_⟩
    cases houtcome : s.layer config t.name with
    | error e => exact ⟨e, rfl⟩
    | ok l =>
      have hsome := (hlayer l houtcome).primaryKey
      rw [hnone] at hsome
      cases hsome

theorem WellKeyed.describedBy_iff (hlayers : s.layers config = .ok ls) :
    List.Forall₂ Table.DescribedBy s.tables ls ↔ ∀ t ∈ s.tables, (s.namesake t).Agrees t := by
  obtain ⟨hkeys, rfl⟩ := hkeyed.layers_eq_ok_iff_namesake.1 hlayers
  rw [List.forall₂_map_right_iff, List.forall₂_same]
  exact forall₂_congr fun t ht => Table.describedBy_layer_iff (hkeys t ht)

/-- Relations of the layers in one schema, with the names of the tables changed alike, are apart
exactly if the tables have distinct names. -/
theorem WellKeyed.pairwise_apart_iff (hlayers : s.layers config = .ok ls)
    {relation : Layer Plan → Relation} {schema : String} {f : String → String}
    (hrelation : ∀ t key, relation (Table.layer config s t key) = ⟨schema, f t.name⟩)
    (hname : ∀ a b, sameName (f a) (f b) = sameName a b) :
    (ls.map relation).Pairwise Relation.Apart ↔ s.DistinctTables := by
  obtain ⟨-, rfl⟩ := hkeyed.layers_eq_ok_iff_namesake.1 hlayers
  have hapart (a b : String) : Relation.Apart ⟨schema, f a⟩ ⟨schema, f b⟩ ↔
      sameName a b = false := by
    rw [Relation.Apart, Relation.text, Relation.text, sameName_append_left, hname]
  rw [List.map_map, List.pairwise_map, DistinctTables]
  refine List.Pairwise.iff_of_mem fun ht hu => ?_
  rw [Function.comp_apply, Function.comp_apply, hrelation, hrelation, hapart,
    sameName_namesake_namesake ht hu]

end Schema

end

/-- In a schema with valid keys, what is reported for a table describes it exactly if the first
table of its name agrees with it or has no primary key. The layers of a build describe the tables
one by one exactly if all tables agree with the first of their names, and their views and shadow
tables are apart exactly if the names are distinct; then all reports describe their tables. -/
theorem Schema.layers_describe_tables_iff {s : Schema} (hvalid : s.validate = .ok ())
    (config : Config) :
    (∀ entry ∈ s.survey config, ∀ u, s.First entry.1.name u →
      (entry.1.ReportedBy entry.2 ↔ (u.primaryKey.isSome → u.Agrees entry.1))) ∧
    (∀ ls, s.layers config = .ok ls →
      (List.Forall₂ Table.DescribedBy s.tables ls ↔
        ∀ t ∈ s.tables, ∀ u, s.First t.name u → u.Agrees t) ∧
      ((ls.map Layer.view).Pairwise Relation.Apart ↔ s.DistinctTables) ∧
      ((ls.map Layer.shadowRelation).Pairwise Relation.Apart ↔ s.DistinctTables)) ∧
    (s.DistinctTables → (∀ entry ∈ s.survey config, entry.1.ReportedBy entry.2) ∧
      ∀ ls, s.layers config = .ok ls → List.Forall₂ Table.DescribedBy s.tables ls) := by
  have hkeyed := validate_eq_ok_iff_wellKeyed.1 hvalid
  refine ⟨fun entry hentry u hu => ?_, fun ls hlayers => ⟨?_, ?_, ?_⟩, fun hdistinct => ⟨?_, ?_⟩⟩
  · obtain ⟨t, ht, rfl⟩ := List.mem_map.1 hentry
    obtain rfl := hu.eq_namesake
    exact hkeyed.reportedBy_iff ht
  · rw [hkeyed.describedBy_iff hlayers]
    constructor
    · intro h t ht u hu
      obtain rfl := hu.eq_namesake
      exact h t ht
    · intro h t ht
      exact h t ht _ (first_namesake ht)
  · exact hkeyed.pairwise_apart_iff hlayers (fun _ _ => rfl) fun _ _ => rfl
  · exact hkeyed.pairwise_apart_iff hlayers (fun _ _ => rfl) sameName_shadowName
  · intro entry hentry
    obtain ⟨t, ht, rfl⟩ := List.mem_map.1 hentry
    exact (hkeyed.reportedBy_iff ht).2 fun _ => (hdistinct.namesake_eq ht).symm ▸ t.agrees_refl
  · intro ls hlayers
    exact (hkeyed.describedBy_iff hlayers).2 fun t ht =>
      (hdistinct.namesake_eq ht).symm ▸ t.agrees_refl

theorem Schema.layers_describe_tables_iff_people :
    ∃ ls, people.layers { redirectedSchema := "changes" } = .ok ls ∧
      List.Forall₂ Table.DescribedBy people.tables ls ∧
      (ls.map Layer.view).Pairwise Relation.Apart ∧
      (ls.map Layer.shadowRelation).Pairwise Relation.Apart ∧
      ∀ entry ∈ people.survey { redirectedSchema := "changes" }, entry.1.ReportedBy entry.2 := by
  obtain ⟨hvalid, hdistinct, -⟩ := people_valid
  obtain ⟨ls, hlayers⟩ := exists_layers_people { redirectedSchema := "changes" }
  obtain ⟨-, hbuild, hdescribed⟩ :=
    layers_describe_tables_iff hvalid { redirectedSchema := "changes" }
  obtain ⟨hreported, hlayersDescribed⟩ := hdescribed hdistinct
  obtain ⟨-, hviews, hshadows⟩ := hbuild _ hlayers
  exact ⟨ls, hlayers, hlayersDescribed _ hlayers, hviews.2 hdistinct, hshadows.2 hdistinct,
    hreported⟩

/-- Two tables with the same name, of which only the first has a primary key. -/
def Schema.twins : Schema :=
  { name := "s"
    tables :=
      [{ name := "t", columns := [{ name := "k", type := .integer, nullable := false }]
         primaryKey := some ["k"], foreignKeys := [] },
        { name := "t", columns := [{ name := "n", type := .string, nullable := true }]
          primaryKey := none, foreignKeys := [] }] }

/-- The layer of the first of two tables with one name is reported for the second too. -/
theorem Schema.exists_layer_of_namesake :
    ∃ ls, twins.validate = .ok () ∧ twins.layers {} = .ok ls ∧
      ¬List.Forall₂ Table.DescribedBy twins.tables ls ∧
      ¬(ls.map Layer.view).Pairwise Relation.Apart ∧
      ¬(ls.map Layer.shadowRelation).Pairwise Relation.Apart ∧
      ∃ entry ∈ twins.survey {}, entry.1.primaryKey = none ∧ ∃ l, entry.2 = .ok l := by
  have hvalid : twins.validate = .ok () := by decide +kernel
  have hkeyed := validate_eq_ok_iff_wellKeyed.1 hvalid
  have hfirst : ∀ t ∈ twins.tables, twins.namesake t = twins.tables[0] := by decide +kernel
  have hnames : ¬twins.DistinctTables := by
    unfold DistinctTables
    decide +kernel
  have hlayers : twins.layers {} = .ok _ := hkeyed.layers_eq_ok_iff_namesake.2
    ⟨fun t ht => by rw [hfirst t ht]; rfl, rfl⟩
  have ht : twins.tables[1] ∈ twins.tables := List.getElem_mem _
  refine ⟨_, hvalid, hlayers, fun h => ?_, fun h => ?_, fun h => ?_, ?_⟩
  · have hagrees := (hkeyed.describedBy_iff hlayers).1 h _ ht
    rw [hfirst _ ht] at hagrees
    exact absurd hagrees.primaryKey (by decide)
  · exact hnames ((hkeyed.pairwise_apart_iff hlayers (fun _ _ => rfl) fun _ _ => rfl).1 h)
  · exact hnames ((hkeyed.pairwise_apart_iff hlayers (fun _ _ => rfl) sameName_shadowName).1 h)
  · exact ⟨_, List.mem_map_of_mem ht, rfl, _,
      (hkeyed.layer_name_eq_ok_iff ht).2 ⟨by rw [hfirst _ ht]; rfl, rfl⟩⟩

end Overlay
