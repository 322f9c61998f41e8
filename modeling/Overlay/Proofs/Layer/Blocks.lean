import Overlay.Layer.Definition
import Overlay.Proofs.Layer.Build

/-!
# The columns of shadow tables and views

The definitions of the shadow table and of the view of a layer list the same lines for the columns
of the table and for its primary key, although the columns of the key are marked in the one when the
shadow table is made and in the other when the line is written. The shadow table has the line of the
status in addition, before that of the key (`Schema.sharesBlock_of_layer`).
-/

namespace Overlay

open Text

section

variable {s : Schema} {config : Config} {name : String} {t : Table} {key : List String}
  {c : Column} {columns : List Column} {l : Layer Plan}

/-! ### Lines of columns -/

/-- The column is not nullable, or the key names it. -/
def Column.NotNull (key : List String) (c : Column) : Prop :=
  c.nullable = false ∨ ∃ k ∈ key, sameName k c.name = true

/-- The line has the name and the type of the column, and the mark of a column that is not null
exactly if the column is one. -/
def Column.Line (key : List String) (c : Column) (line : String) : Prop :=
  ∃ mark, line = "    " ++ c.name ++ " " ++ c.type.name ++ mark ∧
    (mark = " NOT NULL" ∧ c.NotNull key ∨ mark = "" ∧ ¬c.NotNull key)

theorem keyNames_eq_true_iff : keyNames key name = true ↔ ∃ k ∈ key, sameName k name = true :=
  List.any_eq_true

theorem Column.line_definition (key : List String) (c : Column) :
    c.Line key (c.definition (some key)) := by
  refine ⟨_, rfl, ?_⟩
  have hmark : (!c.nullable || (some key).any (keyNames · c.name)) = true ↔ c.NotNull key := by
    rw [Bool.or_eq_true, Bool.not_eq_true', NotNull, Option.any_some, keyNames_eq_true_iff]
  split
  · next h => exact .inl ⟨rfl, hmark.1 h⟩
  · next h => exact .inr ⟨rfl, fun hnotNull => h (hmark.2 hnotNull)⟩

/-- Marking the columns of the key does not change the lines that are written with the key. -/
theorem Column.definition_shadow (key : List String) (c : Column) :
    (c.shadow key).definition (some key) = c.definition (some key) := by
  unfold shadow
  split
  · next h => simp [definition, h]
  · rfl

/-! ### Blocks of lines -/

theorem Column.definition_statusColumnDef (key : List String) :
    statusColumnDef.definition (some key) = "    ROW__STATUS integer NOT NULL" := by
  have hmark : statusColumnDef.definition (some key) = "    " ++ statusColumn ++ " " ++
      ColumnType.integer.name ++ " NOT NULL" := rfl
  rw [hmark]
  decide

theorem columnBlock_some (columns : List Column) (key : List String) :
    columnBlock columns (some key) = String.intercalate ",\n"
      (columns.map (Column.definition (some key)) ++
        ["    PRIMARY KEY(" ++ ", ".intercalate key ++ ")"]) := rfl

theorem Table.shadow_name (t : Table) (key : List String) :
    (t.shadow key).name = t.name ++ "_REDIRECTED" := rfl

theorem Table.columnBlock_shadow (t : Table) (key : List String) :
    columnBlock (t.shadow key).columns (t.shadow key).primaryKey = String.intercalate ",\n"
      (t.columns.map (Column.definition (some key)) ++ ["    ROW__STATUS integer NOT NULL",
        "    PRIMARY KEY(" ++ ", ".intercalate key ++ ")"]) := by
  change columnBlock (t.columns.map (Column.shadow key) ++ [statusColumnDef]) (some key) = _
  rw [columnBlock_some, List.map_append, List.map_map, List.append_assoc, List.map_singleton,
    Column.definition_statusColumnDef]
  congr 2
  exact List.map_congr_left fun c _ => c.definition_shadow key

theorem Layer.viewDefinition_eq (l : Layer PlanText) :
    ∃ rest, l.viewDefinition = "CREATE VIEW " ++ l.name ++ " (\n" ++
        columnBlock l.columns (some l.primaryKey) ++
        "\n) OPTIONS (UPDATABLE 'TRUE')\nAS\n" ++ rest := by
  unfold viewDefinition viewStatements
  rw [String.intercalate_cons_cons]
  unfold viewStatement
  simp only [String.append_assoc]
  exact ⟨_, rfl⟩

/-- The lines are those of the columns of the table. In the definition of the shadow table they are
followed by the line of the status and that of the key, in the definition of the view by the line of
the key alone. -/
structure Layer.SharesBlock (l : Layer Plan) (t : Table) (key lines : List String) : Prop where
  line : List.Forall₂ (Column.Line key) t.columns lines
  shadow : l.shadowDefinition = "CREATE FOREIGN TABLE " ++ (t.name ++ "_REDIRECTED") ++ " (\n" ++
    String.intercalate ",\n" (lines ++ ["    ROW__STATUS integer NOT NULL",
      "    PRIMARY KEY(" ++ ", ".intercalate key ++ ")"]) ++ "\n);"
  view : ∃ rest, l.written.viewDefinition = "CREATE VIEW " ++ t.name ++ " (\n" ++
    String.intercalate ",\n" (lines ++ ["    PRIMARY KEY(" ++ ", ".intercalate key ++ ")"]) ++
      "\n) OPTIONS (UPDATABLE 'TRUE')\nAS\n" ++ rest

theorem Table.sharesBlock_layer (config : Config) (s : Schema) (t : Table) (key : List String) :
    (t.layer config s key).SharesBlock t key (t.columns.map (Column.definition (some key))) where
  line := by
    rw [List.forall₂_map_right_iff, List.forall₂_same]
    exact fun c _ => c.line_definition key
  shadow := by
    rw [← columnBlock_shadow, ← shadow_name t key]
    unfold Layer.shadowDefinition
    rfl
  view := by
    rw [← columnBlock_some]
    exact (t.layer config s key).written.viewDefinition_eq

/-- The shadow table and the view of a layer have the same lines for the columns of the table and
for its key; only the shadow table has the line of the status, right before the key. -/
theorem Schema.sharesBlock_of_layer (h : s.layer config name = .ok l) :
    ∃ t key lines, s.First name t ∧ t.primaryKey = some key ∧ key ≠ [] ∧
      l.SharesBlock t key lines := by
  obtain ⟨t, key, hfound, hkey, -, -, rfl⟩ := layer_eq_ok_iff.1 h
  obtain ⟨hprimary, hnonempty⟩ := Table.rowKey?_eq_some_iff.1 hkey
  exact ⟨t, key, _, table?_eq_some_iff_first.1 hfound, hprimary, hnonempty,
    t.sharesBlock_layer config s key⟩

end

/-- A table whose key is composite and names a column in another letter. -/
def Table.mixed : Table :=
  { name := "t"
    columns :=
      [{ name := "K", type := .long, nullable := true },
        { name := "l", type := .timestamp, nullable := true },
        { name := "m", type := .double, nullable := false },
        { name := "n", type := .string, nullable := true }]
    primaryKey := some ["k", "l"]
    foreignKeys := [] }

/-- A schema of one table. -/
def Schema.mixed : Schema :=
  { name := "s", tables := [Table.mixed] }

theorem Schema.sharesBlock_of_layer_mixed :
    ∃ l lines, mixed.layer {} "t" = .ok l ∧ l.SharesBlock Table.mixed ["k", "l"] lines := by
  have hvalid : mixed.validate = .ok () := by decide +kernel
  have htable : mixed.table? "t" = some Table.mixed := by decide +kernel
  have hlayer : mixed.layer {} "t" = .ok (Table.mixed.layer {} mixed ["k", "l"]) :=
    (validate_eq_ok_iff_wellKeyed.1 hvalid).layer_of_primaryKey htable rfl
  obtain ⟨t, key, lines, hfirst, hkey, -, hblock⟩ := sharesBlock_of_layer hlayer
  obtain rfl := (table?_eq_some_iff_first.1 htable).unique hfirst
  obtain rfl := Option.some.inj hkey
  exact ⟨_, lines, hlayer, hblock⟩

end Overlay
