import Overlay.Proofs.Sql.Program

/-!
# Reading the texts of layers

The four texts of a layer stand for its plan if the names in them are words
(`Schema.read_of_layer`): the names of the schema and the configuration, of the table and its
columns, and of the tables that refer to it and their columns. What is proved of the query and the
triggers of a plan is therefore what their texts say.
-/

namespace Overlay

open Sql Text TriggerText

/-! ### Redirections -/

/-- The names in a redirection are words. -/
structure Redirection.Worded (r : Redirection) : Prop where
  columns : Words r.columns
  key : Words r.key
  base : r.base.Worded
  shadow : r.shadow.Worded
  dependents : ∀ d ∈ r.dependents, IsWord d.table ∧ d.condition.Worded

namespace Redirection

variable {r : Redirection}

theorem Worded.write (h : r.Worded) (mode : WriteMode) (image : RowImage) (status : RowStatus) :
    (r.write mode image status).Worded :=
  ⟨h.shadow, h.columns⟩

theorem Worded.refuseDependents (h : r.Worded) (operation : Operation) {rest : Body}
    (hrest : rest.Worded) : (r.refuseDependents operation rest).Worded := by
  have hdependents := h.dependents
  unfold Redirection.refuseDependents
  generalize r.dependents = dependents at hdependents ⊢
  induction dependents with
  | nil => exact hrest
  | cons d dependents ih =>
    obtain ⟨⟨htable, hcondition⟩, hdependents⟩ := List.forall_mem_cons.1 hdependents
    exact ⟨hcondition, ⟨unbroken_integrityMessage htable.unbroken operation, trivial⟩,
      ih hdependents⟩

/-- The names in a plan are those of its redirection. -/
theorem Worded.plan (h : r.Worded) : r.plan.Worded := by
  have hfind : (Statement.findKey r.base r.key .new).Worded := ⟨h.base, h.key⟩
  have hmessage : Unbroken duplicateKeyMessage := by decide
  have hduplicate : (Body.run (.refuse duplicateKeyMessage) .done).Worded := ⟨hmessage, trivial⟩
  have hmark := h.write .upsert .old .deleted
  refine ⟨⟨h.columns, h.key, h.base, h.shadow⟩, ?_, ?_, ?_⟩
  · exact ⟨hfind, trivial, hduplicate, ⟨h.write .insert .new .inserted, trivial⟩, trivial⟩
  · have hmove : r.moveRow.Worded := ⟨hfind, trivial, hduplicate,
      h.refuseDependents .update ⟨hmark, h.write .upsert .new .inserted, trivial⟩⟩
    exact ⟨h.key, hmove, ⟨h.write .upsert .new .updated, trivial⟩, trivial⟩
  · exact h.refuseDependents .delete ⟨hmark, trivial⟩

end Redirection

/-! ### Layers -/

/-- The names of a table and its columns are words. -/
structure Table.Worded (t : Table) : Prop where
  name : IsWord t.name
  columns : ∀ c ∈ t.columns, IsWord c.name

/-- The names that the texts for the table named `name` are made of are words. -/
structure Schema.WordedAround (s : Schema) (config : Config) (name : String) : Prop where
  schema : IsWord s.name
  redirected : IsWord config.redirectedSchema
  views : IsWord config.baseAlias
  table : ∀ t ∈ s.tables, sameName t.name name = true → t.Worded
  owners : ∀ owner ∈ s.tables, ∀ fk ∈ owner.foreignKeys, sameName fk.target name = true →
    owner.Worded

section

variable {s : Schema} {config : Config} {name : String} {t : Table} {l : Layer Plan}
  {key : List String}

theorem Schema.Worded.around (h : s.Worded) (hredirected : IsWord config.redirectedSchema)
    (hviews : IsWord config.baseAlias) (name : String) : s.WordedAround config name where
  schema := h.name
  redirected := hredirected
  views := hviews
  table t ht _ := ⟨h.tables t ht, h.columns t ht⟩
  owners owner howner _ _ _ := ⟨h.tables owner howner, h.columns owner howner⟩

/-- The names in keys are words because they are names of columns. -/
theorem Table.Redirectable.worded (h : t.Redirectable s) (hfirst : s.First name t)
    (hkey : t.primaryKey = some key) (hwords : s.WordedAround config name) :
    (t.redirection config s key).Worded := by
  obtain ⟨ht, hname⟩ := Schema.mem_of_table? (Schema.table?_eq_some_iff_first.2 hfirst)
  have hword := hwords.table t ht hname
  obtain ⟨hne, hcolumns⟩ := h.wellKeyed.primaryKey key hkey
  have hkeyColumns : ∀ k ∈ key, t.HasColumn k := fun k hk =>
    have ⟨c, hc, _⟩ := hcolumns k hk
    ⟨c, mem_of_column? hc⟩
  refine
    { columns := ⟨?_, List.forall_mem_map.2 hword.columns⟩
      key := ⟨hne, fun k hk => .of_hasColumn hword.columns (hkeyColumns k hk)⟩
      base := ⟨hwords.schema, hword.name⟩
      shadow := ⟨hwords.redirected, hword.name.shadowName⟩
      dependents := List.forall_mem_map.2 ?_ }
  · obtain ⟨k, hk⟩ := List.exists_mem_of_ne_nil key hne
    obtain ⟨c, hc, -⟩ := hkeyColumns k hk
    exact List.ne_nil_of_mem (List.mem_map_of_mem hc)
  · rintro ⟨owner, fk⟩ hmem
    obtain ⟨howner, hfk, htarget⟩ := Schema.mem_referencing.1 hmem
    have hownerWord := hwords.owners owner howner fk hfk (sameName_trans htarget hname)
    obtain ⟨target, hvalid⟩ := (h.owners owner howner ⟨fk, hfk, htarget⟩).foreignKeys fk hfk
    obtain rfl : target = t :=
      Option.some.inj (hvalid.found.symm.trans (hfirst.table?_target htarget))
    refine ⟨hownerWord.name, ⟨?_, hownerWord.name⟩, ?_, fun pair hpair => ?_⟩
    · dsimp only [Dependent.of]
      split
      · exact hwords.views
      · exact hwords.schema
    · simp [Dependent.of, List.zip_eq_nil_iff, hvalid.columns_ne_nil, hvalid.targetColumns_ne_nil]
    · obtain ⟨hleft, hright⟩ := List.of_mem_zip (a := pair.1) (b := pair.2) hpair
      exact ⟨.of_hasColumn hownerWord.columns (hvalid.columns _ hleft),
        .of_hasColumn hword.columns (hvalid.targetColumns _ hright)⟩

/-- The texts of a layer are read as its plan if the names in them are words. -/
theorem Schema.read_of_layer (hl : s.layer config name = .ok l)
    (hwords : s.WordedAround config name) : l.written.plan.read = some l.plan := by
  obtain ⟨t, key, hfirst, hkey, ht, rfl⟩ := layer_eq_ok_iff_redirectable.1 hl
  exact PlanText.read_of_worded (ht.worded hfirst hkey hwords).plan

end

end Overlay
