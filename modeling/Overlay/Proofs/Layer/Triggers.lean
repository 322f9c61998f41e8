import Overlay.Proofs.Layer.Guards
import Overlay.Proofs.Plan.Nesting

/-!
# The triggers of layers

If no name has a line break, the three triggers of a layer are well-nested texts, and a writer that
tracks the depth of blocks writes them without closing a block that is not open
(`Schema.wellNested_of_layer`).
-/

namespace Overlay

open Text TriggerText

/-! ### Texts without line break -/

section

variable {a b : String} {l : List String}

theorem TriggerText.unbroken_append_iff : Unbroken (a ++ b) ↔ Unbroken a ∧ Unbroken b := by
  rw [Unbroken, String.toList_append, List.mem_append, not_or]
  rfl

theorem TriggerText.unbroken_intercalate {separator : String} (hseparator : Unbroken separator)
    (h : ∀ text ∈ l, Unbroken text) : Unbroken (separator.intercalate l) := by
  induction l with
  | nil => exact List.not_mem_nil
  | cons text l ih =>
    obtain ⟨htext, hl⟩ := List.forall_mem_cons.1 h
    cases l with
    | nil =>
      rw [String.intercalate_singleton]
      exact htext
    | cons next l =>
      rw [String.intercalate_cons_cons, unbroken_append_iff, unbroken_append_iff]
      exact ⟨⟨htext, hseparator⟩, ih hl⟩

theorem TriggerText.Unbroken.quoted (h : Unbroken a) : Unbroken (quoted a) := by
  have hdoubled : Unbroken (String.ofList (doubleQuotes a.toList)) := by
    intro hmem
    rw [String.toList_ofList, doubleQuotes, List.mem_flatMap] at hmem
    obtain ⟨c, hc, hmem⟩ := hmem
    split at hmem
    · exact absurd hmem (by decide)
    · exact h (List.mem_singleton.1 hmem ▸ hc)
  rw [Text.quoted, unbroken_append_iff, unbroken_append_iff]
  exact ⟨⟨by decide, hdoubled⟩, by decide⟩

theorem unbroken_qualified (ha : Unbroken a) (hb : Unbroken b) : Unbroken (qualified a b) := by
  rw [qualified, unbroken_append_iff, unbroken_append_iff]
  exact ⟨⟨ha, by decide⟩, hb⟩

theorem unbroken_columnList (h : ∀ c ∈ l, Unbroken c) : Unbroken (columnList l) :=
  unbroken_intercalate (by decide) h

theorem unbroken_equations {pairs : List (String × String)}
    (h : ∀ pair ∈ pairs, Unbroken pair.1 ∧ Unbroken pair.2) : Unbroken (equations pairs) := by
  refine unbroken_intercalate (by decide) (List.forall_mem_map.2 fun pair hpair => ?_)
  obtain ⟨hleft, hright⟩ := h pair hpair
  rw [unbroken_append_iff, unbroken_append_iff]
  exact ⟨⟨hleft, by decide⟩, hright⟩

theorem Relation.unbroken_text {r : Relation} (hschema : Unbroken r.schema)
    (hname : Unbroken r.name) : Unbroken r.text := by
  rw [text, unbroken_append_iff, unbroken_append_iff]
  exact ⟨⟨hschema, by decide⟩, hname⟩

theorem RowImage.unbroken_text (image : RowImage) : Unbroken image.text := by
  cases image <;> decide

theorem RowWrite.unbroken_text {w : RowWrite} (htarget : Unbroken w.target.text)
    (hcolumns : ∀ c ∈ w.columns, Unbroken c) : Unbroken w.text := by
  have hmode : Unbroken w.mode.text := by cases w.mode <;> decide
  have hstatus : Unbroken w.status.text := by cases w.status <;> decide +kernel
  have hlist := unbroken_columnList hcolumns
  have hvalues : Unbroken (columnList (w.columns.map (qualified w.image.text))) :=
    unbroken_columnList (List.forall_mem_map.2 fun c hc =>
      unbroken_qualified w.image.unbroken_text (hcolumns c hc))
  simp only [text, unbroken_append_iff, hmode, hstatus, htarget, hlist, hvalues, true_and]
  decide

theorem Statement.unbroken_findKey {relation : Relation} {key : List String} {image : RowImage}
    (hrelation : Unbroken relation.text) (hkey : ∀ k ∈ key, Unbroken k) :
    Unbroken (findKey relation key image).text := by
  have hequations : Unbroken (equations (key.map fun k => (k, qualified image.text k))) :=
    unbroken_equations (List.forall_mem_map.2 fun k hk =>
      ⟨hkey k hk, unbroken_qualified image.unbroken_text (hkey k hk)⟩)
  simp only [text_findKey, unbroken_append_iff, hrelation, hequations]
  decide

theorem Statement.unbroken_refuse {message : String} (h : Unbroken message) :
    Unbroken (refuse message).text := by
  simp only [text_refuse, unbroken_append_iff, h.quoted]
  decide

theorem Condition.unbroken_header {c : Condition} (h : Unbroken c.text) : Unbroken c.header := by
  simp only [header, unbroken_append_iff, h]
  decide

end

/-! ### Triggers of a redirection -/

/-- None of the names has a line break. -/
structure Redirection.NamesUnbroken (r : Redirection) : Prop where
  columns : ∀ c ∈ r.columns, Unbroken c
  key : ∀ k ∈ r.key, Unbroken k
  base : Unbroken r.base.text
  shadow : Unbroken r.shadow.text
  dependents : ∀ d ∈ r.dependents, Unbroken d.table ∧ Unbroken d.relation.text ∧
    ∀ pair ∈ d.pairs, Unbroken pair.1 ∧ Unbroken pair.2

namespace Redirection

variable {r : Redirection}

theorem unbroken_changing (h : r.NamesUnbroken) :
    Unbroken (Condition.changing r.key).header := by
  refine Condition.unbroken_header (unbroken_intercalate (by decide) ?_)
  exact List.forall_mem_map.2 fun k hk => unbroken_qualified (by decide) (h.key k hk)

theorem unbroken_rowsExist {d : Dependent} (hrelation : Unbroken d.relation.text)
    (hpairs : ∀ pair ∈ d.pairs, Unbroken pair.1 ∧ Unbroken pair.2) :
    Unbroken d.condition.header := by
  have hequations : Unbroken (equations (d.pairs.map fun pair =>
      (pair.1, qualified RowImage.old.text pair.2))) :=
    unbroken_equations (List.forall_mem_map.2 fun pair hpair =>
      ⟨(hpairs pair hpair).1, unbroken_qualified (by decide) (hpairs pair hpair).2⟩)
  have htext : d.condition.text = "(SELECT COUNT(*) > 0 FROM " ++ d.relation.text ++ " WHERE " ++
      equations (d.pairs.map fun pair => (pair.1, qualified RowImage.old.text pair.2)) ++
        ")" := rfl
  refine Condition.unbroken_header ?_
  simp only [htext, unbroken_append_iff, hrelation, hequations]
  decide

theorem unbroken_write (h : r.NamesUnbroken) (mode : WriteMode) (image : RowImage)
    (status : RowStatus) : Unbroken (r.write mode image status).text :=
  RowWrite.unbroken_text h.shadow h.columns

theorem unbroken_integrityMessage {table : String} (h : Unbroken table) (operation : Operation) :
    Unbroken (integrityMessage table operation) := by
  have hplural : Unbroken operation.plural := by cases operation <;> decide
  have htext : integrityMessage table operation = "referential integrity check failed on " ++
      table ++ " table, cascade " ++ operation.plural ++ " are not supported" := rfl
  simp only [htext, unbroken_append_iff, h, hplural]
  decide

theorem unbroken_texts_refuseDependents (h : r.NamesUnbroken) (operation : Operation) {rest : Body}
    (hrest : ∀ text ∈ rest.texts, Unbroken text) :
    ∀ text ∈ (r.refuseDependents operation rest).texts, Unbroken text := by
  have hrefusal (d : Dependent) (rest : Body) :
      (Body.refuseIf d.condition (integrityMessage d.table operation) rest).texts =
        [d.condition.header, (Statement.refuse (integrityMessage d.table operation)).text] ++
          rest.texts := rfl
  rw [refuseDependents_eq_flatMap Body.texts hrefusal, List.forall_mem_append,
    List.forall_mem_flatMap]
  refine ⟨fun d hd => ?_, hrest⟩
  obtain ⟨htable, hrelation, hpairs⟩ := h.dependents d hd
  rw [List.forall_mem_cons, List.forall_mem_singleton]
  exact ⟨unbroken_rowsExist hrelation hpairs,
    Statement.unbroken_refuse (unbroken_integrityMessage htable operation)⟩

/-- No text of the three bodies has a line break. -/
theorem unbroken_texts (h : r.NamesUnbroken) {body : Body}
    (hbody : body ∈ [r.insert, r.update, r.delete]) : ∀ text ∈ body.texts, Unbroken text := by
  have hfind : Unbroken (Statement.findKey r.base r.key .new).text :=
    Statement.unbroken_findKey h.base h.key
  have hduplicate : Unbroken (Statement.refuse duplicateKeyMessage).text :=
    Statement.unbroken_refuse (by decide)
  have hfound : Unbroken Condition.keyFound.header := by decide
  have hwrite := unbroken_write h
  simp only [List.mem_cons, List.not_mem_nil, or_false] at hbody
  obtain rfl | rfl | rfl := hbody
  · simp [insert, Body.texts, hfind, hduplicate, hfound, hwrite]
  · have hrest : ∀ text ∈ (Body.run (r.write .upsert .old .deleted)
        (.run (r.write .upsert .new .inserted) .done)).texts, Unbroken text := by
      simp [Body.texts, hwrite]
    have hrefusals := unbroken_texts_refuseDependents h .update hrest
    simp only [update, moveRow, Body.refuseIf, Body.texts, List.forall_mem_append,
      List.forall_mem_cons]
    have hguard : Unbroken Condition.keyFound.header ∧
        Unbroken (Statement.refuse duplicateKeyMessage).text ∧
          ∀ text ∈ ([] : List String), Unbroken text :=
      ⟨hfound, hduplicate, List.forall_mem_nil _⟩
    exact ⟨⟨⟨unbroken_changing h, hfind, hguard, hrefusals⟩, hwrite .upsert .new .updated,
      List.forall_mem_nil _⟩, List.forall_mem_nil _⟩
  · exact unbroken_texts_refuseDependents h .delete (by simp [Body.texts, hwrite])

end Redirection

/-! ### Triggers of a layer -/

/-- The names in a table: its own, those of its columns and those in its keys. -/
def Table.names (t : Table) : List String :=
  t.name :: t.columnNames ++ t.primaryKey.getD [] ++
    t.foreignKeys.flatMap fun fk => fk.columns ++ fk.targetColumns

/-- The names in a schema. -/
def Schema.names (s : Schema) : List String :=
  s.name :: s.tables.flatMap Table.names

section

variable {s : Schema} {config : Config} {name : String} {t : Table} {l : Layer Plan}
  {key : List String}

theorem Table.name_mem_names (ht : t ∈ s.tables) : ∀ n ∈ t.names, n ∈ s.names := fun _ hn =>
  List.mem_cons_of_mem _ (List.mem_flatMap.2 ⟨t, ht, hn⟩)

/-- No name in a redirection has a line break if none in the schema and in the configuration has
one. -/
theorem Table.namesUnbroken_redirection (hnames : ∀ n ∈ s.names, Unbroken n)
    (halias : Unbroken config.baseAlias) (hredirected : Unbroken config.redirectedSchema)
    (ht : t ∈ s.tables) (hkey : t.primaryKey = some key) :
    (t.redirection config s key).NamesUnbroken := by
  have hschema : Unbroken s.name := hnames s.name List.mem_cons_self
  have htable {u : Table} (hu : u ∈ s.tables) : ∀ n ∈ u.names, Unbroken n := fun n hn =>
    hnames n (Table.name_mem_names hu n hn)
  have hname : Unbroken t.name := htable ht t.name (by simp [names])
  refine
    { columns := fun c hc => htable ht c (by simp [names, show c ∈ t.columnNames from hc])
      key := fun k hk => htable ht k (by simp [names, hkey, show k ∈ key from hk])
      base := Relation.unbroken_text hschema hname
      shadow := Relation.unbroken_text hredirected ?_
      dependents := fun d hd => ?_ }
  · exact unbroken_append_iff.2 ⟨hname, by decide⟩
  · obtain ⟨⟨owner, fk⟩, hreferencing, rfl⟩ := List.mem_map.1 hd
    obtain ⟨howner, hfk, -⟩ := Schema.mem_referencing.1 hreferencing
    have hownerName : Unbroken owner.name := htable howner owner.name (by simp [names])
    have hviews : Unbroken (if owner.rowKey?.isSome then config.baseAlias else s.name) := by
      split
      · exact halias
      · exact hschema
    refine ⟨hownerName, Relation.unbroken_text hviews hownerName, fun pair hpair => ?_⟩
    obtain ⟨hleft, hright⟩ := List.of_mem_zip (a := pair.1) (b := pair.2) hpair
    have hkeyNames (n : String) (hn : n ∈ fk.columns ++ fk.targetColumns) : Unbroken n :=
      htable howner n (List.mem_append_right _ (List.mem_flatMap.2 ⟨fk, hfk, hn⟩))
    exact ⟨hkeyNames _ (List.mem_append_left _ hleft), hkeyNames _ (List.mem_append_right _ hright)⟩

theorem Table.plan_written_layer (config : Config) (s : Schema) (t : Table) (key : List String) :
    (t.layer config s key).written.plan =
      { select := (t.redirection config s key).select.text
        insert := (t.redirection config s key).insert.trigger
        update := (t.redirection config s key).update.trigger
        delete := (t.redirection config s key).delete.trigger } := rfl

/-- The triggers of a layer are well-nested texts if no name has a line break, and the writer that
tracks the depth of blocks writes each of them without failing. -/
theorem Schema.wellNested_of_layer (hnames : ∀ n ∈ s.names, Unbroken n)
    (halias : Unbroken config.baseAlias) (hredirected : Unbroken config.redirectedSchema)
    (hl : s.layer config name = .ok l) :
    (∀ text ∈ [l.written.plan.insert, l.written.plan.update, l.written.plan.delete],
      WellNested text) ∧
      ∃ t, s.First name t ∧
        (t.redirection config s l.primaryKey).writeInsert = some l.written.plan.insert ∧
        (t.redirection config s l.primaryKey).writeUpdate = some l.written.plan.update ∧
        (t.redirection config s l.primaryKey).writeDelete = some l.written.plan.delete := by
  obtain ⟨t, key, hfirst, hkey, -, rfl⟩ := layer_eq_ok_iff_redirectable.1 hl
  obtain ⟨ht, -⟩ := mem_of_table? (table?_eq_some_iff_first.2 hfirst)
  have hunbroken := Table.namesUnbroken_redirection hnames halias hredirected ht hkey
  have hkey' : (t.layer config s key).primaryKey = key := rfl
  simp only [Table.plan_written_layer, hkey', List.forall_mem_cons]
  refine ⟨?_, t, hfirst, Redirection.writeInsert_eq_some _, Redirection.writeUpdate_eq_some _,
    Redirection.writeDelete_eq_some _⟩
  have hnested {body : Body} (hbody : body ∈ [(t.redirection config s key).insert,
      (t.redirection config s key).update, (t.redirection config s key).delete]) :
      WellNested body.trigger :=
    body.wellNested_trigger (Redirection.unbroken_texts hunbroken hbody)
  exact ⟨hnested (by simp), hnested (by simp), hnested (by simp), List.forall_mem_nil _⟩

end

/-- The triggers of a table that is referred to twice. -/
theorem Schema.wellNested_of_layer_referred :
    (∀ n ∈ Referred.schema.names, Unbroken n) ∧ Unbroken (Config.baseAlias {}) ∧
      Unbroken (Config.redirectedSchema {}) ∧
      Referred.schema.layer {} "t" = .ok Referred.layer ∧
      ∀ text ∈ [Referred.layer.written.plan.insert, Referred.layer.written.plan.update,
        Referred.layer.written.plan.delete], WellNested text := by
  have hnames : ∀ n ∈ Referred.schema.names, Unbroken n := by decide +kernel
  have halias : Unbroken (Config.baseAlias {}) := by decide
  have hredirected : Unbroken (Config.redirectedSchema {}) := by decide
  obtain ⟨hnested, -⟩ := wellNested_of_layer hnames halias hredirected Referred.layer_eq_ok
  exact ⟨hnames, halias, hredirected, Referred.layer_eq_ok, hnested⟩

end Overlay
