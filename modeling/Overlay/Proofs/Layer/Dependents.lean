import Mathlib.Data.Finset.Dedup
import Mathlib.Data.Finset.Max
import Overlay.Proofs.Layer.Relations
import Overlay.Proofs.Layer.Requirements

/-!
# The relations of dependents

A trigger looks the dependent rows up in the view of their table if the view is generated, and in
the table itself otherwise. Which of the two is decided by the primary key of the dependent alone;
in a schema with valid keys and distinct tables this is decided rightly, whatever the references
(`Schema.lookUps_find_views`).
-/

namespace Overlay

open SchemaText Text

/-! ### The relations of a plan -/

/-- The relation that a statement reads or writes to, if it does. -/
def Statement.relation? : Statement → Option Relation
  | findKey relation _ _ => some relation
  | write row => some row.target
  | refuse _ => none

/-- The relation that a condition reads, if it does. -/
def Condition.relation? : Condition → Option Relation
  | rowsExist relation _ => some relation
  | _ => none

/-- All relations in a body. -/
def Body.relations : Body → List Relation
  | done => []
  | run statement rest => statement.relation?.toList ++ rest.relations
  | guard condition yes rest => condition.relation?.toList ++ yes.relations ++ rest.relations
  | branch condition yes no rest =>
    condition.relation?.toList ++ yes.relations ++ no.relations ++ rest.relations

/-- All relations in a plan: those of the query and those of the triggers. -/
def Plan.relations (p : Plan) : List Relation :=
  [p.select.base, p.select.shadow] ++ p.insert.relations ++ p.update.relations ++
    p.delete.relations

namespace Redirection

variable (r : Redirection)

theorem relations_refuseDependents (operation : Operation) (rest : Body) :
    (r.refuseDependents operation rest).relations =
      r.dependents.map Dependent.relation ++ rest.relations := by
  have hrefusal (d : Dependent) (rest : Body) : (Body.refuseIf d.condition
      (integrityMessage d.table operation) rest).relations = [d.relation] ++ rest.relations := rfl
  rw [refuseDependents_eq_flatMap Body.relations hrefusal, List.map_eq_flatMap]

/-- A plan is about its table, the shadow table and the relations of the dependents. -/
theorem mem_relations_plan_iff {relation : Relation} :
    relation ∈ r.plan.relations ↔
      relation = r.base ∨ relation = r.shadow ∨ ∃ d ∈ r.dependents, d.relation = relation := by
  have hinsert : r.insert.relations = [r.base, r.shadow] := rfl
  have hupdate : r.update.relations =
      r.base :: r.dependents.map Dependent.relation ++ [r.shadow, r.shadow] ++ [r.shadow] := by
    change r.base :: (r.refuseDependents .update _).relations ++ [r.shadow] ++ [] = _
    rw [relations_refuseDependents, List.append_nil]
    rfl
  have hdelete : r.delete.relations = r.dependents.map Dependent.relation ++ [r.shadow] := by
    rw [delete, relations_refuseDependents]
    rfl
  have hplan : r.plan.relations = [r.base, r.shadow] ++ r.insert.relations ++ r.update.relations ++
      r.delete.relations := rfl
  rw [hplan, hinsert, hupdate, hdelete]
  simp only [List.mem_append, List.mem_cons, List.not_mem_nil, List.mem_map, or_false]
  generalize (∃ d ∈ r.dependents, d.relation = relation) = ofDependent
  tauto

end Redirection

/-! ### Views that are generated -/

/-- A look-up of rows of `owner` reads the view of `owner` if that is generated, and else the table
itself. -/
structure RowCheck.FindsView (s : Schema) (config : Config) (owner : Table) (c : RowCheck) :
    Prop where
  view : ∀ l, s.layer config owner.name = .ok l →
    c.relation = l.view ∧ c.relation = ⟨config.baseAlias, owner.name⟩
  source : (¬∃ l, s.layer config owner.name = .ok l) → c.relation = s.source owner
  /-- If the tables are in another schema than the views, only generated views are read there. -/
  view_iff : s.name ≠ config.baseAlias →
    (c.relation = ⟨config.baseAlias, owner.name⟩ ↔ ∃ l, s.layer config owner.name = .ok l)

/-- A body has one look-up for each foreign key that points at `t`, in order and each on a line of
its text, and the look-ups read the views of the dependents that have one. -/
structure Body.FindsViews (body : Body) (s : Schema) (config : Config) (t : Table) : Prop where
  covers : body.Covers s t
  rowChecks : List.Forall₂
    (fun (reference : Table × ForeignKey) c => c.FindsView s config reference.1)
    (s.referencing t.name) body.rowChecks

section

variable {s : Schema} {config : Config} {t owner : Table} {ls : List (Layer Plan)}

/-- The shadow table with the longest name has no view. -/
theorem Schema.exists_shadowName_ne (hne : s.tables ≠ []) :
    ∃ t ∈ s.tables, ∀ u ∈ s.tables, shadowName t.name ≠ u.name := by
  obtain ⟨u, hu⟩ := List.exists_mem_of_ne_nil _ hne
  obtain ⟨t, ht, hlongest⟩ := Finset.exists_max_image s.tables.toFinset (fun t => t.name.length)
    ⟨u, List.mem_toFinset.2 hu⟩
  refine ⟨t, List.mem_toFinset.1 ht, fun u hu hname => ?_⟩
  have hle := hlongest u (List.mem_toFinset.2 hu)
  rw [← hname, shadowName, String.length_append] at hle
  have hsuffix : "_REDIRECTED".length = 11 := rfl
  omega

variable (hkeyed : s.WellKeyed) (hdistinct : s.DistinctTables)

include hkeyed hdistinct

theorem Dependent.findsView (howner : owner ∈ s.tables) (fk : ForeignKey) {c : RowCheck}
    (hc : c.relation = (Dependent.of s.name config.baseAlias owner fk).relation) :
    c.FindsView s config owner := by
  have hkey : owner.rowKey? = owner.primaryKey := Table.rowKey?_of_wellKeyed (hkeyed owner howner)
  have hlayer (l : Layer Plan) : s.layer config owner.name = .ok l ↔
      owner.primaryKey.isSome ∧ l = owner.layer config s (owner.primaryKey.getD []) :=
    hkeyed.layer_eq_ok_iff hdistinct howner (sameName_refl owner.name)
  have hview (l : Layer Plan) (hl : s.layer config owner.name = .ok l) :
      c.relation = l.view ∧ c.relation = ⟨config.baseAlias, owner.name⟩ := by
    obtain ⟨hsome, rfl⟩ := (hlayer l).1 hl
    rw [← hkey] at hsome
    simp [hc, of, hsome, Layer.view, Table.layer]
  have hsource (hnone : ¬∃ l, s.layer config owner.name = .ok l) : c.relation = s.source owner := by
    have hsome : ¬owner.rowKey?.isSome := by
      rw [hkey]
      exact fun hsome => hnone ⟨_, (hlayer _).2 ⟨hsome, rfl⟩⟩
    simp [hc, of, hsome, Schema.source]
  refine ⟨hview, hsource, fun hname => ⟨fun hrelation => ?_, ?_⟩⟩
  · by_contra hnone
    exact hname (congrArg Relation.schema ((hsource hnone).symm.trans hrelation))
  · rintro ⟨l, hl⟩
    exact (hview l hl).2

theorem Table.findsViews (ht : t ∈ s.tables) (hsome : t.primaryKey.isSome) {key : List String}
    {body : Body} (hbody : body.rowChecks = (t.redirection config s key).rowChecks) :
    body.FindsViews s config t where
  covers := by
    have hfound := hdistinct.table?_eq_some_iff.2 ⟨ht, sameName_refl t.name⟩
    obtain ⟨key, hkey⟩ := Option.isSome_iff_exists.1 hsome
    have hredirectable : t.Redirectable s :=
      ⟨⟨key, hkey, ((hkeyed t ht).primaryKey key hkey).1⟩, hkeyed t ht,
        fun owner howner _ => hkeyed owner howner⟩
    exact hredirectable.covers (Schema.table?_eq_some_iff_first.1 hfound) hbody
  rowChecks := by
    rw [hbody, Redirection.rowChecks, redirection, List.map_map, List.forall₂_map_right_iff,
      List.forall₂_same]
    rintro ⟨owner, fk⟩ hmem
    exact Dependent.findsView hkeyed hdistinct (Schema.mem_referencing.1 hmem).1 fk rfl

/-- All relations of the plans in the schema of the views are views, if the shadow tables are not
there too. -/
theorem Schema.forall_view_iff (hlayers : s.layers config = .ok ls) :
    (∀ l ∈ ls, ∀ relation ∈ l.plan.relations, relation.schema = config.baseAlias →
      ∃ l' ∈ ls, relation = l'.view) ↔
        config.redirectedSchema ≠ config.baseAlias ∨ s.tables = [] := by
  obtain ⟨hkeys, rfl⟩ := (hkeyed.layers_eq_ok_iff hdistinct).1 hlayers
  have hview (relation : Relation) : (∃ l' ∈ s.tables.map fun t => t.layer config s
      (t.primaryKey.getD []), relation = l'.view) ↔
        ∃ u ∈ s.tables, relation = ⟨config.baseAlias, u.name⟩ := by
    simp [Layer.view, Table.layer]
  have hplan (t : Table) : (t.layer config s (t.primaryKey.getD [])).plan.relations =
      (t.redirection config s (t.primaryKey.getD [])).plan.relations := rfl
  simp only [hview, List.forall_mem_map, hplan, Redirection.mem_relations_plan_iff]
  constructor
  · intro h
    by_contra hcontra
    obtain ⟨hname, hne⟩ := not_or.1 hcontra
    obtain ⟨t, ht, hshadow⟩ := exists_shadowName_ne hne
    obtain ⟨u, hu, hrelation⟩ := h t ht _ (.inr (.inl rfl)) (not_not.1 hname)
    exact hshadow u hu (congrArg Relation.name hrelation)
  · rintro (hname | hnil) t ht relation hrelation hschema
    · obtain rfl | rfl | ⟨d, hd, rfl⟩ := hrelation
      · exact ⟨t, ht, congrArg (Relation.mk · t.name) hschema⟩
      · exact absurd hschema hname
      · obtain ⟨⟨owner, fk⟩, hmem, rfl⟩ := List.mem_map.1 hd
        exact ⟨owner, (mem_referencing.1 hmem).1, congrArg (Relation.mk · owner.name) hschema⟩
    · rw [hnil] at ht
      cases ht

end

/-- In a schema with valid keys and distinct tables, the triggers read the view of a dependent if
that is generated, and else its table. If all layers are built, and the shadow tables are not in the
schema of the views, every relation in that schema is a view of one of the layers. -/
theorem Schema.lookUps_find_views {s : Schema} (hvalid : s.validate = .ok ())
    (hdistinct : s.DistinctTables) (config : Config) :
    (∀ t ∈ s.tables, ∀ l, s.layer config t.name = .ok l →
      l.plan.update.FindsViews s config t ∧ l.plan.delete.FindsViews s config t) ∧
    ∀ ls, s.layers config = .ok ls →
      ((∀ l ∈ ls, ∀ relation ∈ l.plan.relations, relation.schema = config.baseAlias →
        ∃ l' ∈ ls, relation = l'.view) ↔
          config.redirectedSchema ≠ config.baseAlias ∨ s.tables = []) := by
  have hkeyed := validate_eq_ok_iff_wellKeyed.1 hvalid
  constructor
  · intro t ht l hl
    obtain ⟨hsome, rfl⟩ := (hkeyed.layer_eq_ok_iff hdistinct ht (sameName_refl t.name)).1 hl
    exact ⟨t.findsViews hkeyed hdistinct ht hsome (Redirection.rowChecks_update _),
      t.findsViews hkeyed hdistinct ht hsome (Redirection.rowChecks_delete _)⟩
  · intro ls hlayers
    exact forall_view_iff hkeyed hdistinct hlayers

/-- Two tables refer to the first, and only one of them has a primary key. -/
def Schema.halfKeyed : Schema :=
  let table (name : String) (primaryKey : Option (List String)) (foreignKeys : List ForeignKey) :
      Table :=
    { name, columns := [{ name := "k", type := .integer, nullable := false }], primaryKey
      foreignKeys }
  let fk : ForeignKey := { columns := ["k"], target := "t", targetColumns := ["k"] }
  { name := "s"
    tables := [table "t" (some ["k"]) [], table "c" (some ["k"]) [fk], table "d" none [fk]] }

theorem Schema.halfKeyed_valid :
    halfKeyed.validate = .ok () ∧ halfKeyed.DistinctTables := by
  unfold DistinctTables
  decide +kernel

theorem Schema.halfKeyed_layer (config : Config) :
    halfKeyed.layer config "t" = .ok (halfKeyed.tables[0].layer config halfKeyed ["k"]) := by
  obtain ⟨hvalid, hdistinct⟩ := halfKeyed_valid
  have ht : halfKeyed.tables[0] ∈ halfKeyed.tables := List.getElem_mem _
  exact ((validate_eq_ok_iff_wellKeyed.1 hvalid).layer_eq_ok_iff hdistinct ht
    (sameName_refl _)).2 ⟨rfl, rfl⟩

theorem Schema.lookUps_find_views_halfKeyed :
    (∃ t ∈ halfKeyed.tables, ∃ l, halfKeyed.layer {} t.name = .ok l ∧
      l.plan.update.FindsViews halfKeyed {} t ∧ l.plan.delete.FindsViews halfKeyed {} t) ∧
    ∃ ls, people.layers { baseAlias := "views" } = .ok ls ∧ ∀ l ∈ ls, ∀ relation ∈ l.plan.relations,
      relation.schema = "views" → ∃ l' ∈ ls, relation = l'.view := by
  constructor
  · obtain ⟨hfinds, -⟩ := lookUps_find_views halfKeyed_valid.1 halfKeyed_valid.2 {}
    have ht : halfKeyed.tables[0] ∈ halfKeyed.tables := List.getElem_mem _
    exact ⟨_, ht, _, halfKeyed_layer {}, hfinds _ ht _ (halfKeyed_layer {})⟩
  · obtain ⟨hvalid, hdistinct, -⟩ := people_valid
    obtain ⟨-, hviews⟩ := lookUps_find_views hvalid hdistinct { baseAlias := "views" }
    obtain ⟨ls, hlayers⟩ := exists_layers_people { baseAlias := "views" }
    exact ⟨ls, hlayers, (hviews _ hlayers).2 (.inl (by decide))⟩

/-- If the views have the name of the schema, rows are looked up under the name of a view that is
not generated; and if the shadow tables are in the schema of the views, they are no views. -/
theorem Schema.exists_lookUp_without_view :
    (∃ config l c, config.check = .ok config ∧ halfKeyed.validate = .ok () ∧
      halfKeyed.DistinctTables ∧ halfKeyed.layer config "t" = .ok l ∧ c ∈ l.plan.delete.rowChecks ∧
        c.relation = ⟨config.baseAlias, "d"⟩ ∧ ¬∃ l', halfKeyed.layer config "d" = .ok l') ∧
    ∃ config ls l relation, (single "s").validate = .ok () ∧ (single "s").DistinctTables ∧
      (single "s").layers config = .ok ls ∧ l ∈ ls ∧ relation ∈ l.plan.relations ∧
        relation.schema = config.baseAlias ∧ ¬∃ l' ∈ ls, relation = l'.view := by
  constructor
  · let config : Config := { baseAlias := "s" }
    obtain ⟨hvalid, hdistinct⟩ := halfKeyed_valid
    have hd : halfKeyed.layer config "d" = .error (.missingPrimaryKey "d") :=
      ((validate_eq_ok_iff_wellKeyed.1 hvalid).layer_eq_error_iff hdistinct).2
        (.inr ⟨halfKeyed.tables[2], List.getElem_mem _, sameName_refl _, rfl, rfl⟩)
    refine ⟨config, _, { relation := ⟨"s", "d"⟩, pairs := [("k", "k")] }, by decide +kernel, hvalid,
      hdistinct, halfKeyed_layer config, ?_, rfl, fun ⟨l', hl'⟩ => ?_⟩
    · have hchecks : (halfKeyed.tables[0].redirection config halfKeyed ["k"]).rowChecks =
          [⟨⟨"s", "c"⟩, [("k", "k")]⟩, ⟨⟨"s", "d"⟩, [("k", "k")]⟩] := by
        decide +kernel
      change _ ∈ (halfKeyed.tables[0].redirection config halfKeyed ["k"]).delete.rowChecks
      rw [Redirection.rowChecks_delete, hchecks]
      simp
    · rw [hd] at hl'
      cases hl'
  · let config : Config := { redirectedSchema := "base" }
    obtain ⟨hvalid, hdistinct, hkeyed⟩ := single_valid
    refine ⟨config, _, _, ⟨"base", "t_REDIRECTED"⟩, hvalid, hdistinct,
      layers_single ⟨hdistinct, hkeyed⟩ config, List.mem_singleton_self _, ?_, rfl, ?_⟩
    · exact (Redirection.mem_relations_plan_iff _).2 (.inr (.inl rfl))
    · rintro ⟨l', hl', hview⟩
      obtain rfl := List.mem_singleton.1 hl'
      exact absurd (congrArg Relation.name hview) (by decide)

end Overlay
