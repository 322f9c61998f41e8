import Overlay.Proofs.Layer.Blocks
import Overlay.Proofs.Layer.Relations
import Overlay.Proofs.Layer.Requirements
import Overlay.Proofs.Schema.Distinct

/-!
# The status column

A shadow table has the columns of its table and the status column behind them. No name is reserved
for the status, so that its name denotes the appended column, and the columns of the shadow table
are different, exactly if the table has no column of that name (`Schema.statusColumn_unique_iff`).
The rows that triggers write are those that their texts are read as (`Schema.read_of_layer`).
-/

namespace Overlay

open Text

/-! ### What triggers write -/

/-- The row that a statement writes, if it does. -/
def Statement.write? : Statement → Option RowWrite
  | write row => some row
  | _ => none

/-- The rows that a body writes, in order. -/
def Body.writes : Body → List RowWrite
  | done => []
  | run statement rest => statement.write?.toList ++ rest.writes
  | guard _ yes rest => yes.writes ++ rest.writes
  | branch _ yes no rest => yes.writes ++ no.writes ++ rest.writes

namespace Redirection

variable (r : Redirection)

/-- A row of all columns that is written to the shadow relation. -/
def rowWrite (mode : WriteMode) (image : RowImage) (status : RowStatus) : RowWrite :=
  { mode, target := r.shadow, columns := r.columns, image, status }

theorem writes_refuseDependents (operation : Operation) (rest : Body) :
    (r.refuseDependents operation rest).writes = rest.writes := by
  have hrefusal (d : Dependent) (rest : Body) : (Body.refuseIf d.condition
      (integrityMessage d.table operation) rest).writes = [] ++ rest.writes := rfl
  rw [refuseDependents_eq_flatMap Body.writes hrefusal]
  simp

theorem writes_insert : r.insert.writes = [r.rowWrite .insert .new .inserted] := rfl

theorem writes_update :
    r.update.writes = [r.rowWrite .upsert .old .deleted, r.rowWrite .upsert .new .inserted,
      r.rowWrite .upsert .new .updated] := by
  change (r.refuseDependents .update _).writes ++ _ ++ [] = _
  rw [writes_refuseDependents]
  rfl

theorem writes_delete : r.delete.writes = [r.rowWrite .upsert .old .deleted] := by
  rw [delete, writes_refuseDependents]
  rfl

/-- Each trigger writes rows, and all of them to the shadow relation with all columns. -/
theorem writes_of_mem {body : Body} (hbody : body ∈ [r.insert, r.update, r.delete]) :
    body.writes ≠ [] ∧ ∀ w ∈ body.writes, w.target = r.shadow ∧ w.columns = r.columns := by
  have hrow (mode : WriteMode) (image : RowImage) (status : RowStatus) :
      (r.rowWrite mode image status).target = r.shadow ∧
        (r.rowWrite mode image status).columns = r.columns := ⟨rfl, rfl⟩
  simp only [List.mem_cons, List.not_mem_nil, or_false] at hbody
  obtain rfl | rfl | rfl := hbody
  · simp [writes_insert, hrow]
  · simp [writes_update, hrow]
  · simp [writes_delete, hrow]

end Redirection

/-! ### Columns of a shadow table -/

/-- Where a text of the layer names the status column, it is about the shadow table: the view reads
its rows, every trigger writes rows of it with a value for each of its columns, the status last, and
its definition lists its columns. -/
structure Layer.AddressesShadow (l : Layer Plan) : Prop where
  select : l.plan.select.shadow = l.shadowRelation ∧
    l.plan.select.columns ++ [statusColumn] = l.shadow.columnNames
  writes : ∀ body ∈ [l.plan.insert, l.plan.update, l.plan.delete], body.writes ≠ [] ∧
    ∀ w ∈ body.writes, w.target = l.shadowRelation ∧
      w.columns ++ [statusColumn] = l.shadow.columnNames
  definition : ∃ key, l.shadow.primaryKey = some key ∧
    l.shadowDefinition = "CREATE FOREIGN TABLE " ++ l.shadow.name ++ " (\n" ++
      String.intercalate ",\n"
        (l.shadow.columns.map (Column.definition (some key)) ++
          ["    PRIMARY KEY(" ++ ", ".intercalate key ++ ")"]) ++ "\n);"

section

variable {s : Schema} {config : Config} {name : String} {t : Table} {l : Layer Plan}

theorem Table.columns_shadow (t : Table) (key : List String) :
    (t.shadow key).columns = t.columns.map (Column.shadow key) ++ [statusColumnDef] := rfl

theorem Table.columnNames_shadow (t : Table) (key : List String) :
    (t.shadow key).columnNames = t.columnNames ++ [statusColumn] := by
  rw [columnNames, columns_shadow, List.map_append, List.map_map]
  congr 1
  exact List.map_congr_left fun c _ => c.name_shadow key

/-- No column of the table has the name of the status column. -/
theorem Table.forall_shadow_iff (t : Table) (key : List String) :
    (∀ c ∈ t.columns.map (Column.shadow key), sameName c.name statusColumnDef.name = false) ↔
      ¬t.HasColumn statusColumn := by
  rw [List.forall_mem_map, not_hasColumn_iff, columnNames, List.forall_mem_map]
  simp only [Column.name_shadow]
  rfl

theorem Table.distinctColumns_shadow_iff (h : t.DistinctColumns) (key : List String) :
    (t.shadow key).DistinctColumns ↔ ¬t.HasColumn statusColumn := by
  rw [DistinctColumns, columnNames_shadow, distinctNames_append_singleton_iff, not_hasColumn_iff]
  exact and_iff_right h

theorem Table.denotes_shadow_iff (t : Table) (key : List String) :
    (t.shadow key).Denotes statusColumn statusColumnDef ↔ ¬t.HasColumn statusColumn :=
  (denotes_iff_of_append (t.columns_shadow key)).trans (t.forall_shadow_iff key)

theorem Table.addressesShadow_layer (config : Config) (s : Schema) (t : Table)
    (key : List String) : (t.layer config s key).AddressesShadow where
  select := ⟨rfl, (t.columnNames_shadow key).symm⟩
  writes body hbody := by
    obtain ⟨hne, hwrites⟩ := (t.redirection config s key).writes_of_mem hbody
    refine ⟨hne, fun w hw => ?_⟩
    obtain ⟨htarget, hcolumns⟩ := hwrites w hw
    rw [htarget, hcolumns]
    exact ⟨rfl, (t.columnNames_shadow key).symm⟩
  definition := ⟨key, rfl, rfl⟩

/-- The columns of the shadow table of a layer are different, and the name of the status column
denotes the one that was appended, exactly if no column of the table has this name. The texts of the
layer use the name for columns of the shadow table alone. -/
theorem Schema.statusColumn_unique_iff (hfirst : s.First name t) (hdistinct : t.DistinctColumns)
    (hl : s.layer config name = .ok l) :
    (l.shadow.DistinctColumns ↔ ¬t.HasColumn statusColumn) ∧
      (l.shadow.Denotes statusColumn statusColumnDef ↔ ¬t.HasColumn statusColumn) ∧
      l.AddressesShadow := by
  obtain ⟨t', key, hfirst', -, -, rfl⟩ := layer_eq_ok_iff_redirectable.1 hl
  obtain rfl : t' = t := hfirst'.unique hfirst
  exact ⟨Table.distinctColumns_shadow_iff hdistinct key, t'.denotes_shadow_iff key,
    t'.addressesShadow_layer config s key⟩

end

/-- In the shadow table of a table whose key is composite the status is the only column of its
name. -/
theorem Schema.statusColumn_unique_iff_mixed :
    ∃ l, mixed.validate = .ok () ∧ mixed.First "t" Table.mixed ∧ Table.mixed.DistinctColumns ∧
      mixed.layer {} "t" = .ok l ∧ l.shadow.DistinctColumns ∧
        l.shadow.Denotes statusColumn statusColumnDef := by
  have hvalid : mixed.validate = .ok () := by decide +kernel
  have htable : mixed.table? "t" = some Table.mixed := by decide +kernel
  have hfirst := table?_eq_some_iff_first.1 htable
  have hdistinct : Table.mixed.DistinctColumns := by decide +kernel
  have hlayer : mixed.layer {} "t" = .ok (Table.mixed.layer {} mixed ["k", "l"]) :=
    (validate_eq_ok_iff_wellKeyed.1 hvalid).layer_of_primaryKey htable rfl
  have hstatus : ¬Table.mixed.HasColumn statusColumn := by
    rw [Table.not_hasColumn_iff]
    decide +kernel
  obtain ⟨hshadow, hdenotes, -⟩ := statusColumn_unique_iff hfirst hdistinct hlayer
  exact ⟨_, hvalid, hfirst, hdistinct, hlayer, hshadow.2 hstatus, hdenotes.2 hstatus⟩

/-- A table with a column that has the name of the status column. -/
def Table.statused : Table :=
  { name := "t"
    columns :=
      [{ name := "k", type := .integer, nullable := false },
        { name := "ROW__STATUS", type := .string, nullable := true }]
    primaryKey := some ["k"]
    foreignKeys := [] }

/-- A schema with this table alone. -/
def Schema.statused : Schema :=
  { name := "s", tables := [Table.statused] }

/-- The shadow table of a table that has a column of this name has two of them. -/
theorem Schema.exists_second_statusColumn :
    ∃ l, statused.validate = .ok () ∧ statused.First "t" Table.statused ∧
      Table.statused.DistinctColumns ∧ statused.layer {} "t" = .ok l ∧
        ¬l.shadow.DistinctColumns ∧ ¬l.shadow.Denotes statusColumn statusColumnDef := by
  have hvalid : statused.validate = .ok () := by decide +kernel
  have htable : statused.table? "t" = some Table.statused := by decide +kernel
  have hdistinct : Table.statused.DistinctColumns := by decide +kernel
  have hstatus : Table.statused.HasColumn statusColumn :=
    ⟨_, List.mem_cons_of_mem _ List.mem_cons_self, sameName_refl _⟩
  refine ⟨_, hvalid, table?_eq_some_iff_first.1 htable, hdistinct,
    (validate_eq_ok_iff_wellKeyed.1 hvalid).layer_of_primaryKey htable rfl, fun h => ?_,
    fun h => ?_⟩
  · exact (Table.distinctColumns_shadow_iff hdistinct ["k"]).1 h hstatus
  · exact (Table.statused.denotes_shadow_iff ["k"]).1 h hstatus

end Overlay
