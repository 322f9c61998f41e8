import Overlay.Proofs.Layer.Relations
import Overlay.Proofs.Layer.Requirements
import Overlay.Proofs.SchemaText.TableOrder

/-!
# Layers and the order of tables

The order in which a text declares its tables decides in what order the triggers of a layer check
the tables that refer to its own, and nothing else (`Schema.read_perm`).
-/

namespace Overlay

open SchemaText Text

/-! ### Triggers that check dependents in another order -/

/-- The lines that refuse an operation if a row of the dependent refers to the old row. -/
def Dependent.refusal (operation : Operation) (depth : Nat) (d : Dependent) : List String :=
  (Body.refuseIf d.condition (integrityMessage d.table operation) .done).lines depth

/-- Two triggers have the same look-ups of dependent rows and the same lines, but for the order in
which they refuse the operation. -/
structure Body.SameButOrder (operation : Operation) (body body' : Body) : Prop where
  rowChecks : body.rowChecks.Perm body'.rowChecks
  lines : ∃ (before after : List String) (depth : Nat) (ds ds' : List Dependent), ds.Perm ds' ∧
    body.triggerLines = before ++ ds.flatMap (Dependent.refusal operation depth) ++ after ∧
    body'.triggerLines = before ++ ds'.flatMap (Dependent.refusal operation depth) ++ after

namespace Redirection

variable (r : Redirection)

theorem lines_refuseDependents (operation : Operation) (rest : Body) (depth : Nat) :
    (r.refuseDependents operation rest).lines depth =
      r.dependents.flatMap (Dependent.refusal operation depth) ++ rest.lines depth := by
  have hrefusal (d : Dependent) (rest : Body) : (Body.refuseIf d.condition
      (integrityMessage d.table operation) rest).lines depth =
        d.refusal operation depth ++ rest.lines depth := by
    simp [Dependent.refusal, Body.refuseIf, Body.lines]
  exact refuseDependents_eq_flatMap (fun body => body.lines depth) hrefusal r rest

/-- Around the refusals the delete trigger is the same whatever the dependents. -/
theorem exists_triggerLines_delete :
    ∃ before after, ∀ dependents, { r with dependents }.delete.triggerLines =
      before ++ dependents.flatMap (Dependent.refusal .delete 1) ++ after := by
  refine ⟨["FOR EACH ROW", "BEGIN ATOMIC"],
    [indented 1 (r.write .upsert .old .deleted).text, "END"], fun dependents => ?_⟩
  rw [Body.triggerLines, delete, lines_refuseDependents]
  simp [Body.lines, write]

/-- Around the refusals the update trigger is the same whatever the dependents. -/
theorem exists_triggerLines_update :
    ∃ before after, ∀ dependents, { r with dependents }.update.triggerLines =
      before ++ dependents.flatMap (Dependent.refusal .update 2) ++ after := by
  let start : Body :=
    .run (.findKey r.base r.key .new) <| .refuseIf .keyFound duplicateKeyMessage .done
  let finish : Body :=
    .run (r.write .upsert .old .deleted) <| .run (r.write .upsert .new .inserted) .done
  let other : Body := .run (r.write .upsert .new .updated) .done
  have hmove (dependents : List Dependent) : { r with dependents }.moveRow.lines 2 =
      start.lines 2 ++ dependents.flatMap (Dependent.refusal .update 2) ++ finish.lines 2 := by
    simp only [moveRow, Body.refuseIf, Body.lines, lines_refuseDependents, start, finish]
    simp [write]
  refine ⟨"FOR EACH ROW" :: "BEGIN ATOMIC" :: indented 1 (Condition.changing r.key).header ::
      indented 1 "BEGIN" :: start.lines 2,
    finish.lines 2 ++ [indented 1 "END"] ++ block 1 "ELSE" (other.lines 2) ++ ["END"],
    fun dependents => ?_⟩
  have hbranch : { r with dependents }.update.lines 1 =
      block 1 (Condition.changing r.key).header ({ r with dependents }.moveRow.lines 2) ++
        block 1 "ELSE" (other.lines 2) ++ [] := rfl
  rw [Body.triggerLines, hbranch, hmove]
  simp [block]

variable {r} {dependents : List Dependent} (h : r.dependents.Perm dependents)

include h

theorem rowChecks_perm : r.rowChecks.Perm { r with dependents }.rowChecks :=
  h.map _

theorem sameButOrder_delete :
    Body.SameButOrder .delete r.delete { r with dependents }.delete where
  rowChecks := by
    rw [rowChecks_delete, rowChecks_delete]
    exact rowChecks_perm h
  lines := by
    obtain ⟨before, after, hlines⟩ := r.exists_triggerLines_delete
    exact ⟨before, after, _, _, _, h, hlines _, hlines _⟩

theorem sameButOrder_update :
    Body.SameButOrder .update r.update { r with dependents }.update where
  rowChecks := by
    rw [rowChecks_update, rowChecks_update]
    exact rowChecks_perm h
  lines := by
    obtain ⟨before, after, hlines⟩ := r.exists_triggerLines_update
    exact ⟨before, after, _, _, _, h, hlines _, hlines _⟩

end Redirection

/-! ### Layers of schemas with permuted tables -/

/-- Two layers are the same but for the order in which the triggers of their views check the
dependents. -/
structure Layer.SameButOrder (l l' : Layer Plan) : Prop where
  schema : l.schema = l'.schema
  name : l.name = l'.name
  columns : l.columns = l'.columns
  primaryKey : l.primaryKey = l'.primaryKey
  redirectedSchema : l.redirectedSchema = l'.redirectedSchema
  shadow : l.shadow = l'.shadow
  select : l.plan.text.select = l'.plan.text.select
  insert : l.plan.text.insert = l'.plan.text.insert
  update : Body.SameButOrder .update l.plan.update l'.plan.update
  delete : Body.SameButOrder .delete l.plan.delete l'.plan.delete

namespace Schema

section

variable {s s' : Schema} {config : Config} {t : Table} {name : String}

theorem Permuted.layer_sameButOrder (h : s.Permuted s') (config : Config) (t : Table)
    (key : List String) : (t.layer config s key).SameButOrder (t.layer config s' key) := by
  let dependent (schema : Schema) (reference : Table × ForeignKey) : Dependent :=
    .of schema.name config.baseAlias reference.1 reference.2
  have hdependents : (t.redirection config s key).dependents.Perm
      ((s'.referencing t.name).map (dependent s')) := by
    have hdependent : dependent s = dependent s' := by
      unfold dependent
      rw [h.name]
    change ((s.referencing t.name).map (dependent s)).Perm _
    rw [hdependent]
    exact (h.referencing_perm t.name).map _
  have hredirection : t.redirection config s' key =
      { t.redirection config s key with
        dependents := (s'.referencing t.name).map (dependent s') } := by
    unfold Table.redirection
    rw [h.name]
  have hplan : (t.layer config s' key).plan =
      Redirection.plan { t.redirection config s key with
        dependents := (s'.referencing t.name).map (dependent s') } :=
    congrArg Redirection.plan hredirection
  refine ⟨rfl, rfl, rfl, rfl, rfl, rfl, ?_, ?_, ?_, ?_⟩
  · rw [hplan]
    rfl
  · rw [hplan]
    rfl
  · rw [hplan]
    exact Redirection.sameButOrder_update hdependents
  · rw [hplan]
    exact Redirection.sameButOrder_delete hdependents

/-- The tables of both schemas have the same layers, but for the order of the checks. -/
structure SameLayers (s s' : Schema) : Prop where
  layer : ∀ config, ∀ t ∈ s.tables, t.primaryKey.isSome → ∀ name, sameName t.name name = true →
    ∃ l l', s.layer config name = .ok l ∧ s'.layer config name = .ok l' ∧ l.SameButOrder l'

theorem Permuted.sameLayers (h : s.Permuted s') (hdistinct : s.DistinctTables)
    (hkeyed : s.WellKeyed) : s.SameLayers s' where
  layer config t ht hkey name hname := by
    refine ⟨t.layer config s (t.primaryKey.getD []), t.layer config s' (t.primaryKey.getD []),
      ?_, ?_, h.layer_sameButOrder config t _⟩
    · exact (hkeyed.layer_eq_ok_iff hdistinct ht hname).2 ⟨hkey, rfl⟩
    · exact ((h.wellKeyed hdistinct hkeyed).layer_eq_ok_iff (h.distinctTables hdistinct)
        (h.tables.mem_iff.1 ht) hname).2 ⟨hkey, rfl⟩

end

/-! ### Texts -/

/-- A text is accepted whatever the order of its tables. It describes each table in the same way,
and the layers of a table differ at most in the order of the checks of its dependents. -/
theorem read_perm {text text' : String} {head : List Char} {blocks blocks' : List TextBlock}
    (hperm : blocks.Perm blocks')
    (htext : contents text.toList = head :: blocks.flatMap TextBlock.lines)
    (htext' : contents text'.toList = head :: blocks'.flatMap TextBlock.lines) :
    ((∃ s, read text = .ok s) ↔ ∃ s, read text' = .ok s) ∧
      ∀ s s', read text = .ok s → read text' = .ok s' →
        s'.name = s.name ∧
          (∃ declared : TextBlock → Table,
            (∀ b ∈ blocks, tableHead? b.head = some (declared b).name) ∧
              s.tables = blocks.map declared ∧ s'.tables = blocks'.map declared) ∧
          s.SameLayers s' := by
  constructor
  · constructor
    · rintro ⟨s, hs⟩
      obtain ⟨s', -, hs', -⟩ := read_of_perm hperm htext htext' hs
      exact ⟨s', hs'⟩
    · rintro ⟨s', hs'⟩
      obtain ⟨s, -, hs, -⟩ := read_of_perm hperm.symm htext' htext hs'
      exact ⟨s, hs⟩
  · intro s s' hs hs'
    obtain ⟨_, declared, hread, hpermuted, hheads, htables, htables'⟩ :=
      read_of_perm hperm htext htext' hs
    obtain rfl := Except.ok.inj (hread.symm.trans hs')
    obtain ⟨hdistinct, hkeyed⟩ := valid_of_read hs
    exact ⟨hpermuted.name.symm, ⟨declared, hheads, htables, htables'⟩,
      hpermuted.sameLayers hdistinct hkeyed⟩

end Schema

/-- Two tables that refer to each other, and one that refers to the first. -/
def SchemaText.linkedBlocks : List TextBlock :=
  [{ head := "table a\x7b".toList
     inner := ["k int primary_key references c".toList]
     brace_notMem := by decide },
    { head := "table b\x7b".toList
      inner := ["k int references a".toList]
      brace_notMem := by decide },
    { head := "table c\x7b".toList
      inner := ["k int primary_key references a".toList]
      brace_notMem := by decide }]

theorem Schema.read_perm_linkedBlocks :
    ∃ text text' s s', linkedBlocks.Perm linkedBlocks.reverse ∧
      contents text.toList = "schema s".toList :: linkedBlocks.flatMap TextBlock.lines ∧
      contents text'.toList = "schema s".toList :: linkedBlocks.reverse.flatMap TextBlock.lines ∧
      read text = .ok s ∧ read text' = .ok s' ∧ s.SameLayers s' := by
  let text := "schema s\ntable a\x7b\nk int primary_key references c\n\x7d\n" ++
    "table b\x7b\nk int references a\n\x7d\ntable c\x7b\nk int primary_key references a\n\x7d"
  let text' := "schema s\ntable c\x7b\nk int primary_key references a\n\x7d\n" ++
    "table b\x7b\nk int references a\n\x7d\ntable a\x7b\nk int primary_key references c\n\x7d"
  let table (name : String) (primaryKey : Option (List String)) (target : String) : Table :=
    { name, columns := [{ name := "k", type := .integer, nullable := primaryKey.isNone }]
      primaryKey
      foreignKeys := [{ columns := ["k"], target, targetColumns := ["k"] }] }
  have hread : read text = .ok
      { name := "s"
        tables :=
          [table "a" (some ["k"]) "c", table "b" none "a", table "c" (some ["k"]) "a"] } := by
    decide +kernel
  have htext : contents text.toList =
      "schema s".toList :: linkedBlocks.flatMap TextBlock.lines := by
    decide +kernel
  have htext' : contents text'.toList =
      "schema s".toList :: linkedBlocks.reverse.flatMap TextBlock.lines := by
    decide +kernel
  have hperm := linkedBlocks.reverse_perm.symm
  obtain ⟨haccepted, hlayers⟩ := read_perm hperm htext htext'
  obtain ⟨s', hread'⟩ := haccepted.1 ⟨_, hread⟩
  obtain ⟨-, -, hsame⟩ := hlayers _ s' hread hread'
  exact ⟨text, text', _, s', hperm, htext, htext', hread, hread', hsame⟩

end Overlay
