import Overlay.Proofs.Case.Text
import Overlay.Proofs.Layer.Build
import Overlay.Proofs.SchemaText.Names

/-!
# The relations of a schema and its layers

Beside the tables of a schema stand the views and the shadow tables of its layers, in schemas of
their own. All of them have different qualified names exactly if the name of the schema keeps the
source tables apart from the views and the shadow tables (`Schema.relations_apart_iff`). The
relations that queries read and triggers write to are those that stand in their texts
(`Schema.read_of_layer`).
-/

namespace Overlay

open SchemaText Text

/-! ### Relations and their names -/

/-- The relation of a table of the schema. -/
def Schema.source (s : Schema) (t : Table) : Relation :=
  { schema := s.name, name := t.name }

namespace Layer

variable {π : Type}

/-- The view of a layer. -/
def view (l : Layer π) : Relation :=
  { schema := l.schema, name := l.name }

/-- The shadow table of a layer, in its schema. -/
def shadowRelation (l : Layer π) : Relation :=
  { schema := l.redirectedSchema, name := l.shadow.name }

end Layer

/-- The tables of the schema, then the views and the shadow tables of the layers. -/
def Schema.relations (s : Schema) (ls : List (Layer Plan)) : List Relation :=
  s.tables.map s.source ++ (ls.map Layer.view ++ ls.map Layer.shadowRelation)

/-- The relation that a statement writes to, if it does. -/
def Statement.target? : Statement → Option Relation
  | write row => some row.target
  | _ => none

/-- The relations that a body writes to. -/
def Body.targets : Body → List Relation
  | done => []
  | run statement rest => statement.target?.toList ++ rest.targets
  | guard _ yes rest => yes.targets ++ rest.targets
  | branch _ yes no rest => yes.targets ++ no.targets ++ rest.targets

/-- The qualified names differ, also up to the case of ASCII letters. -/
def Relation.Apart (r r' : Relation) : Prop :=
  sameName r.text r'.text = false

theorem Relation.apart_comm {r r' : Relation} : r.Apart r' ↔ r'.Apart r := by
  rw [Apart, sameName_comm, Apart]

/-- A list is parted in one way only at the last place of an element. -/
theorem append_cons_inj_of_notMem_right {α : Type} {a : α} {l l' r r' : List α} (hr : a ∉ r)
    (hr' : a ∉ r') : l ++ a :: r = l' ++ a :: r' ↔ l = l' ∧ r = r' := by
  constructor
  · intro h
    obtain ⟨m, rfl, hm⟩ | ⟨m, rfl, hm⟩ := List.append_eq_append_iff.1 h
    · cases m with
      | nil => exact ⟨(List.append_nil l).symm, List.tail_eq_of_cons_eq hm⟩
      | cons b m =>
        rw [List.tail_eq_of_cons_eq hm] at hr
        simp at hr
    · cases m with
      | nil => exact ⟨List.append_nil l', (List.tail_eq_of_cons_eq hm).symm⟩
      | cons b m =>
        rw [List.tail_eq_of_cons_eq hm] at hr'
        simp at hr'
  · rintro ⟨rfl, rfl⟩
    rfl

theorem IsWord.dot_notMem {name : String} (h : IsWord name) :
    '.' ∉ name.toLower.toList := by
  intro hdot
  rw [toList_toLower, List.mem_map] at hdot
  obtain ⟨c, hc, hlower⟩ := hdot
  obtain rfl : c = '.' := (toLower_eq_iff_of_lt (by decide)).1 hlower
  exact absurd (h.forall_mem _ hc) (by decide)

/-- Behind the last dot of a qualified name stands the name, if that is a word. -/
theorem Relation.apart_iff {schema schema' name name' : String} (h : IsWord name)
    (h' : IsWord name') :
    Apart ⟨schema, name⟩ ⟨schema', name'⟩ ↔
      ¬(sameName schema schema' = true ∧ sameName name name' = true) := by
  have htext (schema name : String) : (text ⟨schema, name⟩).toLower.toList =
      schema.toLower.toList ++ '.' :: name.toLower.toList := by
    unfold text
    simp [toList_toLower, String.toList_append]
  rw [Apart, ← Bool.not_eq_true, not_iff_not, sameName_iff, sameName_iff, sameName_iff,
    ← String.toList_inj, htext, htext, append_cons_inj_of_notMem_right h.dot_notMem h'.dot_notMem,
    String.toList_inj, String.toList_inj]

theorem IsWord.shadowName {name : String} (h : IsWord name) : IsWord (shadowName name) := by
  obtain ⟨hne, hchars⟩ := isWord_iff.1 h
  have hsuffix : "_REDIRECTED".toList.all isWordChar = true := by decide
  rw [isWord_iff, Overlay.shadowName, String.toList_append, List.all_append, hchars, hsuffix]
  exact ⟨List.append_ne_nil_of_left_ne_nil hne _, rfl⟩

theorem sameName_shadowName (a b : String) :
    sameName (shadowName a) (shadowName b) = sameName a b :=
  sameName_append_right a b "_REDIRECTED"

/-! ### What triggers write to -/

namespace Redirection

variable (r : Redirection)

theorem targets_refuseDependents (operation : Operation) (rest : Body) :
    (r.refuseDependents operation rest).targets = rest.targets := by
  have hrefusal (d : Dependent) (rest : Body) : (Body.refuseIf d.condition
      (integrityMessage d.table operation) rest).targets = [] ++ rest.targets := rfl
  rw [refuseDependents_eq_flatMap Body.targets hrefusal]
  simp

/-- All triggers write to the shadow relation alone. -/
theorem eq_shadow_of_mem_targets {body : Body} (hbody : body ∈ [r.insert, r.update, r.delete])
    {target : Relation} (htarget : target ∈ body.targets) : target = r.shadow := by
  have hinsert : r.insert.targets = [r.shadow] := rfl
  have hupdate : r.update.targets = [r.shadow, r.shadow, r.shadow] := by
    change (r.refuseDependents .update _).targets ++ _ ++ [] = _
    rw [targets_refuseDependents]
    rfl
  have hdelete : r.delete.targets = [r.shadow] := by
    rw [delete, targets_refuseDependents]
    rfl
  simp only [List.mem_cons, List.not_mem_nil, or_false] at hbody
  obtain rfl | rfl | rfl := hbody
  · simpa [hinsert] using htarget
  · simpa [hupdate] using htarget
  · simpa [hdelete] using htarget

end Redirection

/-! ### Keeping the relations apart -/

/-- The name of the schema keeps its tables apart from the views and from the shadow tables. -/
structure Schema.KeptApart (s : Schema) (config : Config) : Prop where
  views : s.tables ≠ [] → sameName s.name config.baseAlias = false
  shadows : sameName s.name config.redirectedSchema = true →
    ∀ t ∈ s.tables, ∀ u ∈ s.tables, sameName t.name (shadowName u.name) = false

/-- The query of the view does not read the view, and no trigger writes to a table of the schema. -/
structure Layer.Sound (s : Schema) (l : Layer Plan) : Prop where
  select : l.view.Apart l.plan.select.base ∧ l.view.Apart l.plan.select.shadow
  triggers : ∀ body ∈ [l.plan.insert, l.plan.update, l.plan.delete], ∀ target ∈ body.targets,
    ∀ t ∈ s.tables, target.Apart (s.source t)

section

variable {s : Schema} {config : Config}

/-- Relations in one schema differ if they have the names of different tables, changed alike. -/
theorem Schema.DistinctTables.pairwise_apart (h : s.DistinctTables) (schema : String)
    {f : String → String} (hword : ∀ t ∈ s.tables, IsWord (f t.name))
    (hname : ∀ a b, sameName (f a) (f b) = sameName a b) :
    (s.tables.map fun t => Relation.mk schema (f t.name)).Pairwise Relation.Apart := by
  rw [List.pairwise_map]
  apply List.Pairwise.imp_of_mem ?_ h
  intro t u ht hu hne
  refine (Relation.apart_iff (hword t ht) (hword u hu)).2 ?_
  rintro ⟨-, hsame⟩
  rw [hname, hne] at hsame
  cases hsame

variable (hword : ∀ t ∈ s.tables, IsWord t.name)

include hword

theorem Schema.source_apart_view_iff :
    (∀ t ∈ s.tables, ∀ u ∈ s.tables, (s.source t).Apart ⟨config.baseAlias, u.name⟩) ↔
      (s.tables ≠ [] → sameName s.name config.baseAlias = false) := by
  constructor
  · intro h hne
    obtain ⟨t, ht⟩ := List.exists_mem_of_ne_nil _ hne
    have hapart := (Relation.apart_iff (hword t ht) (hword t ht)).1 (h t ht t ht)
    rw [← Bool.not_eq_true]
    exact fun hname => hapart ⟨hname, sameName_refl t.name⟩
  · intro h t ht u hu
    refine (Relation.apart_iff (hword t ht) (hword u hu)).2 ?_
    rintro ⟨hname, -⟩
    exact Bool.eq_false_iff.1 (h (List.ne_nil_of_mem ht)) hname

theorem Schema.source_apart_shadow_iff :
    (∀ t ∈ s.tables, ∀ u ∈ s.tables,
      (s.source t).Apart ⟨config.redirectedSchema, shadowName u.name⟩) ↔
      (sameName s.name config.redirectedSchema = true →
        ∀ t ∈ s.tables, ∀ u ∈ s.tables, sameName t.name (shadowName u.name) = false) := by
  constructor
  · intro h hname t ht u hu
    have hapart := (Relation.apart_iff (hword t ht) (hword u hu).shadowName).1 (h t ht u hu)
    rw [← Bool.not_eq_true]
    exact fun hsame => hapart ⟨hname, hsame⟩
  · intro h t ht u hu
    refine (Relation.apart_iff (hword t ht) (hword u hu).shadowName).2 ?_
    rintro ⟨hname, hsame⟩
    exact Bool.eq_false_iff.1 (h hname t ht u hu) hsame

omit hword in
/-- The relations of the layers, for those of the tables. -/
theorem Schema.relations_map_layer (key : Table → List String) :
    s.relations (s.tables.map fun t => t.layer config s (key t)) =
      s.tables.map s.source ++ ((s.tables.map fun t => ⟨config.baseAlias, t.name⟩) ++
        s.tables.map fun t => ⟨config.redirectedSchema, shadowName t.name⟩) := by
  rw [relations, List.map_map, List.map_map]
  rfl

end

/-- The tables of a schema that was read and the relations of its layers have different qualified
names exactly if the name of the schema keeps them apart, and then no view reads itself and no
trigger writes to a table of the schema. -/
theorem Schema.relations_apart_iff {text : String} {s : Schema} {config : Config}
    {ls : List (Layer Plan)} (hread : read text = .ok s) (hcheck : config.check = .ok config)
    (hlayers : s.layers config = .ok ls) :
    ((s.relations ls).Pairwise Relation.Apart ↔ s.KeptApart config) ∧
      (s.KeptApart config → ∀ l ∈ ls, l.Sound s) := by
  obtain ⟨hdistinct, hkeyed⟩ := valid_of_read hread
  have hword := (worded_of_read hread).tables
  obtain ⟨-, -, hconfig, -⟩ := Config.check_eq_ok_iff.1 hcheck
  obtain ⟨-, rfl⟩ := (hkeyed.layers_eq_ok_iff hdistinct).1 hlayers
  have hviews : ∀ t ∈ s.tables, ∀ u ∈ s.tables, Relation.Apart ⟨config.baseAlias, t.name⟩
      ⟨config.redirectedSchema, shadowName u.name⟩ := by
    intro t ht u hu
    refine (Relation.apart_iff (hword t ht) (hword u hu).shadowName).2 ?_
    rintro ⟨hname, -⟩
    rw [sameName_comm, hconfig] at hname
    cases hname
  constructor
  · rw [relations_map_layer, List.pairwise_append, List.pairwise_append]
    simp only [List.mem_append, List.forall_mem_map]
    constructor
    · rintro ⟨-, -, hcross⟩
      constructor
      · refine (source_apart_view_iff hword).1 ?_
        intro t ht u hu
        exact hcross t ht _ (.inl (List.mem_map_of_mem hu))
      · refine (source_apart_shadow_iff hword).1 ?_
        intro t ht u hu
        exact hcross t ht _ (.inr (List.mem_map_of_mem hu))
    · intro h
      refine ⟨hdistinct.pairwise_apart s.name hword fun _ _ => rfl,
        ⟨hdistinct.pairwise_apart _ hword fun _ _ => rfl,
          hdistinct.pairwise_apart _ (fun t ht => (hword t ht).shadowName) sameName_shadowName,
          hviews⟩, ?_⟩
      intro t ht r hr
      obtain hr | hr := hr
      · obtain ⟨u, hu, rfl⟩ := List.mem_map.1 hr
        exact (source_apart_view_iff hword).2 h.views t ht u hu
      · obtain ⟨u, hu, rfl⟩ := List.mem_map.1 hr
        exact (source_apart_shadow_iff hword).2 h.shadows t ht u hu
  · intro h l hl
    obtain ⟨t, ht, rfl⟩ := List.mem_map.1 hl
    constructor
    · exact ⟨Relation.apart_comm.1 ((source_apart_view_iff hword).2 h.views t ht t ht),
        hviews t ht t ht⟩
    · intro body hbody target htarget u hu
      rw [Redirection.eq_shadow_of_mem_targets _ hbody htarget]
      exact Relation.apart_comm.1 ((source_apart_shadow_iff hword).2 h.shadows u hu t ht)

/-- Two tables with primary keys; the second, whose key has two columns, refers to the first. -/
def Schema.people : Schema :=
  let column (name : String) : Column := { name, type := .integer, nullable := false }
  { name := "people"
    tables :=
      [{ name := "person", columns := [column "id"], primaryKey := some ["id"], foreignKeys := [] },
        { name := "visit", columns := [column "day", column "guest"]
          primaryKey := some ["day", "guest"]
          foreignKeys := [{ columns := ["guest"], target := "person", targetColumns := ["id"] }] }] }

theorem Schema.people_valid :
    people.validate = .ok () ∧ people.DistinctTables ∧ people.WellKeyed := by
  have hvalid : people.validate = .ok () := by decide +kernel
  have hdistinct : people.DistinctTables := by
    unfold DistinctTables
    decide +kernel
  exact ⟨hvalid, hdistinct, validate_eq_ok_iff_wellKeyed.1 hvalid⟩

theorem Schema.exists_layers_people (config : Config) : ∃ ls, people.layers config = .ok ls := by
  obtain ⟨-, hdistinct, hkeyed⟩ := people_valid
  exact ⟨_, (hkeyed.layers_eq_ok_iff hdistinct).2 ⟨by simp [people], rfl⟩⟩

/-- The shadow tables stand in the schema of the tables, whose name is written with another
letter. -/
theorem Schema.relations_apart_iff_people :
    ∃ text ls, read text = .ok people ∧
      people.layers { redirectedSchema := "People", baseAlias := "views" } = .ok ls ∧
      (people.relations ls).Pairwise Relation.Apart ∧ ∀ l ∈ ls, l.Sound people := by
  let config : Config := { redirectedSchema := "People", baseAlias := "views" }
  have hread : read ("schema people\ntable person\x7b\nid int primary_key\n\x7d\n" ++
      "table visit\x7b\nday int primary_key\nguest int primary_key references person\n\x7d") =
        .ok people := by
    decide +kernel
  have hcheck : config.check = .ok config := by decide +kernel
  have hapart : people.KeptApart config :=
    ⟨fun _ => by decide +kernel, fun _ => by decide +kernel⟩
  obtain ⟨ls, hlayers⟩ := exists_layers_people config
  obtain ⟨hpairwise, hsound⟩ := relations_apart_iff hread hcheck hlayers
  exact ⟨_, ls, hread, hlayers, hpairwise.2 hapart, hsound hapart⟩

/-- A schema with a single table. -/
def Schema.single (name : String) : Schema :=
  { name
    tables :=
      [{ name := "t", columns := [{ name := "k", type := .integer, nullable := false }]
         primaryKey := some ["k"], foreignKeys := [] }] }

theorem Schema.layers_single {name : String}
    (h : (single name).DistinctTables ∧ (single name).WellKeyed) (config : Config) :
    (single name).layers config =
      .ok ((single name).tables.map fun t => t.layer config (single name) ["k"]) :=
  (h.2.layers_eq_ok_iff h.1).2 ⟨by simp [single], rfl⟩

theorem Schema.single_valid :
    (single "s").validate = .ok () ∧ (single "s").DistinctTables ∧ (single "s").WellKeyed := by
  have hvalid : (single "s").validate = .ok () := by decide +kernel
  exact ⟨hvalid, List.pairwise_singleton _ _, validate_eq_ok_iff_wellKeyed.1 hvalid⟩

/-- In a schema with the name of the views' schema, a table and its view have one name, and the view
reads itself. -/
theorem Schema.exists_view_reads_itself :
    ∃ ls, read "schema base\ntable t\x7b\nk int primary_key\n\x7d" = .ok (single "base") ∧
      Config.check {} = .ok {} ∧ (single "base").layers {} = .ok ls ∧
        ¬((single "base").relations ls).Pairwise Relation.Apart ∧
          ∃ l ∈ ls, l.plan.select.base = l.view := by
  have hread : read "schema base\ntable t\x7b\nk int primary_key\n\x7d" = .ok (single "base") := by
    decide +kernel
  refine ⟨_, hread, by decide +kernel, layers_single (valid_of_read hread) {}, fun h => ?_,
    _, List.mem_singleton_self _, rfl⟩
  have hsource := (List.pairwise_cons.1 h).1 ⟨"base", "t"⟩ List.mem_cons_self
  exact Bool.eq_false_iff.1 hsource (sameName_refl _)

end Overlay
