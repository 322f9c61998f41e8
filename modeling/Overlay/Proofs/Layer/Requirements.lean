import Overlay.Proofs.Layer.Build

/-!
# What a layer requires

When the layer of a table can be built, said of the schema alone (`Schema.layer_requirements`). The
schema may be one that nobody has checked: keys may be wrong, and several tables may have one name.
The first table with the name counts. It is also the table that the foreign keys towards it are
checked against, so that the triggers look up dependent rows by columns that exist, one for each
column of the foreign key.
-/

namespace Overlay

open Text

/-! ### Look-ups of dependent rows -/

/-- A look-up of dependent rows: the relation, and its columns with the columns of the old row that
they are compared with. -/
@[ext] structure RowCheck where
  relation : Relation
  pairs : List (String × String)
  deriving DecidableEq, Repr

namespace RowCheck

/-- The condition that there are such rows. -/
def condition (c : RowCheck) : Condition :=
  .rowsExist c.relation c.pairs

/-- The equations that the rows satisfy. -/
def conjuncts (c : RowCheck) : List String :=
  c.pairs.map fun (column, target) => column ++ " = " ++ qualified RowImage.old.text target

/-- The condition in writing. -/
def text (c : RowCheck) : String :=
  "(SELECT COUNT(*) > 0 FROM " ++ c.relation.text ++ " WHERE " ++
    String.intercalate " AND " c.conjuncts ++ ")"

theorem text_condition (c : RowCheck) : c.condition.text = c.text := by
  have hequations : equations (c.pairs.map fun (column, target) =>
      (column, qualified RowImage.old.text target)) = String.intercalate " AND " c.conjuncts := by
    rw [equations, List.map_map]
    rfl
  exact congrArg (fun conjunction =>
    "(SELECT COUNT(*) > 0 FROM " ++ c.relation.text ++ " WHERE " ++ conjunction ++ ")") hequations

end RowCheck

/-- The look-up of a condition, if it is one. -/
def Condition.rowCheck? : Condition → Option RowCheck
  | rowsExist relation pairs => some { relation, pairs }
  | _ => none

theorem Condition.rowCheck?_eq_some_iff {condition : Condition} {c : RowCheck} :
    condition.rowCheck? = some c ↔ condition = c.condition := by
  cases condition with
  | rowsExist relation pairs => simp [rowCheck?, RowCheck.condition, RowCheck.ext_iff, eq_comm]
  | _ => simp [rowCheck?, RowCheck.condition]

/-- All look-ups of dependent rows in a body, in order. -/
def Body.rowChecks : Body → List RowCheck
  | done => []
  | run _ rest => rest.rowChecks
  | guard condition yes rest => condition.rowCheck?.toList ++ yes.rowChecks ++ rest.rowChecks
  | branch condition yes no rest =>
    condition.rowCheck?.toList ++ yes.rowChecks ++ no.rowChecks ++ rest.rowChecks

/-- Each look-up stands on a line of the text. -/
theorem Body.exists_mem_lines {body : Body} {c : RowCheck} (h : c ∈ body.rowChecks) (depth : Nat) :
    ∃ d, indented d ("IF (" ++ c.text ++ ")") ∈ body.lines depth := by
  induction body generalizing depth with
  | done => cases h
  | run statement rest ih =>
    obtain ⟨d, hd⟩ := ih h depth
    exact ⟨d, List.mem_cons_of_mem _ hd⟩
  | guard condition yes rest ihyes ihrest =>
    simp only [rowChecks, List.mem_append, Option.mem_toList,
      Condition.rowCheck?_eq_some_iff] at h
    obtain (rfl | h) | h := h
    · exact ⟨depth, by simp [lines, block, Condition.header, RowCheck.text_condition]⟩
    · obtain ⟨d, hd⟩ := ihyes h (depth + 1)
      exact ⟨d, by simp [lines, block, hd]⟩
    · obtain ⟨d, hd⟩ := ihrest h depth
      exact ⟨d, by simp [lines, hd]⟩
  | branch condition yes no rest ihyes ihno ihrest =>
    simp only [rowChecks, List.mem_append, Option.mem_toList,
      Condition.rowCheck?_eq_some_iff] at h
    obtain ((rfl | h) | h) | h := h
    · exact ⟨depth, by simp [lines, block, Condition.header, RowCheck.text_condition]⟩
    · obtain ⟨d, hd⟩ := ihyes h (depth + 1)
      exact ⟨d, by simp [lines, block, hd]⟩
    · obtain ⟨d, hd⟩ := ihno h (depth + 1)
      exact ⟨d, by simp [lines, block, hd]⟩
    · obtain ⟨d, hd⟩ := ihrest h depth
      exact ⟨d, by simp [lines, hd]⟩

namespace Redirection

variable (r : Redirection)

/-- The look-up of each dependent. -/
def rowChecks : List RowCheck :=
  r.dependents.map fun d => { relation := d.relation, pairs := d.pairs }

theorem rowChecks_refuseDependents (operation : Operation) (rest : Body) :
    (r.refuseDependents operation rest).rowChecks = r.rowChecks ++ rest.rowChecks := by
  have hrefusal (d : Dependent) (rest : Body) : (Body.refuseIf d.condition
      (integrityMessage d.table operation) rest).rowChecks =
        [{ relation := d.relation, pairs := d.pairs }] ++ rest.rowChecks := rfl
  rw [refuseDependents_eq_flatMap Body.rowChecks hrefusal, rowChecks, List.map_eq_flatMap]

theorem rowChecks_update : r.update.rowChecks = r.rowChecks := by
  have hmove : r.moveRow.rowChecks = r.rowChecks := by
    change (r.refuseDependents .update _).rowChecks = _
    rw [rowChecks_refuseDependents]
    exact List.append_nil _
  change r.moveRow.rowChecks ++ [] ++ [] = _
  rw [hmove, List.append_nil, List.append_nil]

theorem rowChecks_delete : r.delete.rowChecks = r.rowChecks := by
  rw [delete, rowChecks_refuseDependents]
  exact List.append_nil _

end Redirection

/-- A look-up finds the rows of `owner` that refer to the old row of `t` by `fk`: it pairs the
columns of the foreign key with the columns they refer to, position by position. -/
structure RowCheck.Covers (c : RowCheck) (t owner : Table) (fk : ForeignKey) : Prop where
  relation : c.relation.name = owner.name
  columns : c.pairs.map Prod.fst = fk.columns
  targetColumns : c.pairs.map Prod.snd = fk.targetColumns
  length_conjuncts : c.conjuncts.length = fk.columns.length
  conjuncts_ne_nil : c.conjuncts ≠ []
  hasColumn : ∀ pair ∈ c.pairs, owner.HasColumn pair.1 ∧ t.HasColumn pair.2

/-- The look-up of a valid foreign key loses none of its columns. -/
theorem ForeignKey.Valid.covers {s : Schema} {t owner : Table} {fk : ForeignKey} {c : RowCheck}
    (h : fk.Valid s owner t) (hrelation : c.relation.name = owner.name)
    (hpairs : c.pairs = fk.columns.zip fk.targetColumns) : c.Covers t owner fk := by
  have hcolumns : c.pairs.map Prod.fst = fk.columns := by
    rw [hpairs, List.map_fst_zip h.length_eq.le]
  have hlength : c.conjuncts.length = fk.columns.length := by
    rw [RowCheck.conjuncts, List.length_map, ← hcolumns, List.length_map]
  refine ⟨hrelation, hcolumns, ?_, hlength, ?_, fun pair hpair => ?_⟩
  · rw [hpairs, List.map_snd_zip h.length_eq.ge]
  · rw [← List.length_pos_iff, hlength, List.length_pos_iff]
    exact h.columns_ne_nil
  · rw [hpairs] at hpair
    exact ⟨h.columns _ (List.of_mem_zip hpair).1, h.targetColumns _ (List.of_mem_zip hpair).2⟩

/-- The look-ups of a trigger cover the foreign keys that point at `t`, in order, and each of them
stands on a line of its text. -/
structure Body.Covers (body : Body) (s : Schema) (t : Table) : Prop where
  rowChecks : List.Forall₂
    (fun (reference : Table × ForeignKey) c => c.Covers t reference.1 reference.2)
    (s.referencing t.name) body.rowChecks
  written : ∀ c ∈ body.rowChecks,
    ∃ depth, indented depth ("IF (" ++ c.text ++ ")") ∈ body.triggerLines

/-! ### The requirements -/

/-- The table has a foreign key that points at `t`, by its name. -/
def Table.RefersTo (owner t : Table) : Prop :=
  ∃ fk ∈ owner.foreignKeys, sameName fk.target t.name = true

/-- The table has a primary key with columns, and its keys are valid as are those of all tables that
refer to it. -/
structure Table.Redirectable (s : Schema) (t : Table) : Prop where
  primaryKey : ∃ key, t.primaryKey = some key ∧ key ≠ []
  wellKeyed : t.WellKeyed s
  owners : ∀ owner ∈ s.tables, owner.RefersTo t → owner.WellKeyed s

section

variable {s : Schema} {config : Config} {t owner : Table} {fk : ForeignKey} {name : String}
  {l : Layer Plan}

/-- Names that mean a table mean the first one: a foreign key that points at it by its name is
checked against this very table, even if others have the name too. -/
theorem Schema.First.table?_target (h : s.First name t) (hfk : sameName fk.target t.name = true) :
    s.table? fk.target = some t := by
  have hname : sameName fk.target name = true :=
    sameName_trans hfk (mem_of_table? (table?_eq_some_iff_first.2 h)).2
  rw [table?_congr hname]
  exact table?_eq_some_iff_first.2 h

theorem Schema.layer_eq_ok_iff_redirectable :
    s.layer config name = .ok l ↔
      ∃ t key, s.First name t ∧ t.primaryKey = some key ∧ t.Redirectable s ∧
        l = t.layer config s key := by
  rw [layer_eq_ok_iff]
  simp only [table?_eq_some_iff_first, Table.rowKey?_eq_some_iff, mem_referencing]
  constructor
  · rintro ⟨t, key, hfirst, ⟨hkey, hne⟩, ht, howners, rfl⟩
    refine ⟨t, key, hfirst, hkey, ⟨⟨key, hkey, hne⟩, ht, ?_⟩, rfl⟩
    rintro owner hmem ⟨fk, hfk, htarget⟩
    exact howners owner fk ⟨hmem, hfk, htarget⟩
  · rintro ⟨t, key, hfirst, hkey, ⟨-, ht, howners⟩, rfl⟩
    exact ⟨t, key, hfirst, ⟨hkey, (ht.primaryKey key hkey).1⟩, ht,
      fun owner fk ⟨hmem, hfk, htarget⟩ => howners owner hmem ⟨fk, hfk, htarget⟩, rfl⟩

/-- A body whose look-ups are those of the dependents covers the foreign keys that point at the
table. -/
theorem Table.Redirectable.covers (h : t.Redirectable s) (hfirst : s.First name t)
    {key : List String} {body : Body}
    (hbody : body.rowChecks = (t.redirection config s key).rowChecks) : body.Covers s t where
  rowChecks := by
    rw [hbody, Redirection.rowChecks, redirection, List.map_map, List.forall₂_map_right_iff,
      List.forall₂_same]
    rintro ⟨owner, fk⟩ hmem
    obtain ⟨howner, hfk, htarget⟩ := Schema.mem_referencing.1 hmem
    obtain ⟨target, hvalid⟩ := (h.owners owner howner ⟨fk, hfk, htarget⟩).foreignKeys fk hfk
    obtain rfl : target = t :=
      Option.some.inj (hvalid.found.symm.trans (hfirst.table?_target htarget))
    exact hvalid.covers rfl rfl
  written c hc := by
    obtain ⟨depth, hline⟩ := Body.exists_mem_lines hc 1
    exact ⟨depth, by simp [Body.triggerLines, hline]⟩

/-- A layer is built exactly if the first table with the name can be redirected, and then its update
and delete triggers have one look-up for each foreign key that points at the table, which pairs the
columns of the foreign key with existing columns of the table. -/
theorem Schema.layer_requirements (s : Schema) (config : Config) (name : String) :
    ((∃ l, s.layer config name = .ok l) ↔ ∃ t, s.First name t ∧ t.Redirectable s) ∧
      ∀ l t, s.layer config name = .ok l → s.First name t →
        l.plan.update.Covers s t ∧ l.plan.delete.Covers s t := by
  constructor
  · simp only [layer_eq_ok_iff_redirectable]
    constructor
    · rintro ⟨_, t, -, hfirst, -, ht, -⟩
      exact ⟨t, hfirst, ht⟩
    · rintro ⟨t, hfirst, ht⟩
      obtain ⟨key, hkey, -⟩ := ht.primaryKey
      exact ⟨_, t, key, hfirst, hkey, ht, rfl⟩
  · intro l t hl hfirst
    obtain ⟨t', key, hfirst', -, ht, rfl⟩ := layer_eq_ok_iff_redirectable.1 hl
    obtain rfl : t' = t := Option.some.inj
      ((table?_eq_some_iff_first.2 hfirst').symm.trans (table?_eq_some_iff_first.2 hfirst))
    exact ⟨ht.covers hfirst (Redirection.rowChecks_update _),
      ht.covers hfirst (Redirection.rowChecks_delete _)⟩

end

/-- The first table refers to the second, whose name the third has too, with an empty key. -/
def Schema.repeated : Schema :=
  let column (name : String) : Column := { name, type := .integer, nullable := false }
  { name := "s"
    tables :=
      [{ name := "d", columns := [column "r"], primaryKey := none
         foreignKeys := [{ columns := ["r"], target := "t", targetColumns := ["k"] }] },
        { name := "t", columns := [column "k"], primaryKey := some ["k"], foreignKeys := [] },
        { name := "t", columns := [], primaryKey := some [], foreignKeys := [] }] }

theorem Schema.layer_requirements_repeated :
    repeated.validate ≠ .ok () ∧ ∃ l t, repeated.layer {} "t" = .ok l ∧ repeated.First "t" t ∧
      l.plan.update.Covers repeated t ∧ l.plan.delete.Covers repeated t := by
  obtain ⟨t, hfirst, hkey, ht⟩ : ∃ t, repeated.First "t" t ∧ t.primaryKey = some ["k"] ∧
      repeated.validateTable t = .ok () :=
    ⟨repeated.tables[1], table?_eq_some_iff_first.1 (by decide +kernel), rfl,
      by decide +kernel⟩
  have howners (owner : Table) (howner : owner ∈ repeated.tables) (hrefers : owner.RefersTo t) :
      owner.WellKeyed repeated := by
    obtain ⟨fk, hfk, -⟩ := hrefers
    have hcheck : ∀ u ∈ repeated.tables, u.foreignKeys ≠ [] → repeated.validateTable u = .ok () := by
      decide +kernel
    exact validateTable_eq_ok_iff.1 (hcheck owner howner (List.ne_nil_of_mem hfk))
  obtain ⟨hok, hchecks⟩ := layer_requirements repeated {} "t"
  obtain ⟨l, hl⟩ := hok.2 ⟨t, hfirst, ⟨_, hkey, by decide⟩, validateTable_eq_ok_iff.1 ht, howners⟩
  exact ⟨by decide +kernel, l, t, hl, hfirst, hchecks l t hl hfirst⟩

end Overlay
