import Overlay.Proofs.SchemaText.Acceptance

/-!
# Writing schemas

A schema is written as a text with a line for its name and, for each table, a line for its head, one
for each column, one for its primary key, if it has one, one for each reference, and a closing brace
(`Schema.text`). If the names are words (`Schema.Worded`), each line is read as what it was written
for, also where a name is a word of the text format, such as a column called `primary`.
-/

namespace Overlay

open SchemaText Text

/-! ### The text of a schema -/

/-- A list of names in parentheses. -/
def namesText (names : List String) : String :=
  "(" ++ String.intercalate ", " names ++ ")"

/-- The line of a column. -/
def Column.line (c : Column) : String :=
  c.name ++ " " ++ c.type.name ++ if c.nullable then "" else " not_null"

/-- The line of a primary key. -/
def primaryKeyText (key : List String) : String :=
  "primary key " ++ namesText key

/-- The end of the line of a reference: its target and the columns of the target. -/
def ForeignKey.targetText (fk : ForeignKey) : String :=
  " references " ++ fk.target ++ " " ++ namesText fk.targetColumns

/-- The line of a reference. -/
def ForeignKey.line (fk : ForeignKey) : String :=
  "foreign key " ++ namesText fk.columns ++ fk.targetText

/-- The lines inside a table. -/
def Table.innerLines (t : Table) : List String :=
  t.columns.map Column.line ++ (t.primaryKey.map primaryKeyText).toList ++
    t.foreignKeys.map ForeignKey.line

/-- The lines of a table. -/
def Table.lines (t : Table) : List String :=
  ("table " ++ t.name ++ " \x7b") :: t.innerLines ++ ["\x7d"]

/-- The lines of a schema. -/
def Schema.lines (s : Schema) : List String :=
  ("schema " ++ s.name) :: s.tables.flatMap Table.lines

/-- The text of a schema: its lines, each with a line break. -/
def Schema.text (s : Schema) : String :=
  String.join (s.lines.map (· ++ "\n"))

/-! ### What the lines stand for -/

/-- What the line of a column stands for. -/
def Column.bodyLine (c : Column) : BodyLine :=
  .column c.name c.type.name (if c.nullable then [] else [.notNull])

/-- What the line of a reference stands for. -/
def ForeignKey.bodyLine (fk : ForeignKey) : BodyLine :=
  .foreignKey fk.columns fk.target fk.targetColumns

/-- What the lines of a table stand for. -/
def Table.block (t : Table) : Block :=
  { name := t.name
    body := t.columns.map Column.bodyLine ++ (t.primaryKey.map BodyLine.primaryKey).toList ++
      t.foreignKeys.map ForeignKey.bodyLine }

/-- What the lines of a schema stand for. -/
def Schema.document (s : Schema) : Document :=
  { name := s.name, blocks := s.tables.map Table.block }

theorem ColumnType.ofWord?_name (type : ColumnType) : ofWord? type.name = some type := by
  cases type <;> decide +kernel

section

variable {c : Column} {t : Table} {s : Schema}

theorem Column.column?_bodyLine (c : Column) : c.bodyLine.column? = some c := by
  obtain ⟨name, type, nullable⟩ := c
  cases nullable <;> simp [bodyLine, BodyLine.column?, ColumnType.ofWord?_name, isNullable,
    Constraint.nullability?]

theorem Column.references_bodyLine (c : Column) : c.bodyLine.references = [] := by
  unfold bodyLine
  split <;> rfl

theorem Column.inlineKey_bodyLine (c : Column) : c.bodyLine.inlineKey = [] := by
  unfold bodyLine
  split <;> rfl

theorem Table.filterMap_body_block {α : Type} (f : BodyLine → Option α) (t : Table) :
    t.block.body.filterMap f =
      t.columns.filterMap (fun c => f c.bodyLine) ++
        (t.primaryKey.bind fun key => f (.primaryKey key)).toList ++
          t.foreignKeys.filterMap fun fk => f fk.bodyLine := by
  simp only [block, List.filterMap_append, List.filterMap_map]
  cases t.primaryKey with
  | none => rfl
  | some key => cases h : f (.primaryKey key) <;> simp [h]

theorem Table.flatMap_body_block {α : Type} (f : BodyLine → List α) (t : Table) :
    t.block.body.flatMap f =
      t.columns.flatMap (fun c => f c.bodyLine) ++
        (t.primaryKey.toList.flatMap fun key => f (.primaryKey key)) ++
          t.foreignKeys.flatMap fun fk => f fk.bodyLine := by
  simp only [block, List.flatMap_append, List.flatMap_map]
  cases t.primaryKey <;> simp

theorem Table.columns_block (t : Table) : t.block.columns = t.columns := by
  have hkey (key : List String) : (BodyLine.primaryKey key).column? = none := rfl
  have hforeign (fk : ForeignKey) : fk.bodyLine.column? = none := rfl
  rw [Block.columns, filterMap_body_block]
  simp [Column.column?_bodyLine, hkey, hforeign]

theorem Table.references_block (t : Table) : t.block.references = t.foreignKeys := by
  have hkey (key : List String) : (BodyLine.primaryKey key).references = [] := rfl
  have hforeign (fk : ForeignKey) : fk.bodyLine.references = [fk] := rfl
  have hnil {α : Type} (l : List α) : l.flatMap (fun _ => ([] : List ForeignKey)) = [] := by simp
  rw [Block.references, flatMap_body_block]
  simp [Column.references_bodyLine, hkey, hforeign, hnil]

theorem Table.inlineKey_block (t : Table) : t.block.inlineKey = [] := by
  have hkey (key : List String) : (BodyLine.primaryKey key).inlineKey = [] := rfl
  have hforeign (fk : ForeignKey) : fk.bodyLine.inlineKey = [] := rfl
  rw [Block.inlineKey, flatMap_body_block]
  simp [Column.inlineKey_bodyLine, hkey, hforeign]

theorem Table.clauseKeys_block (t : Table) : t.block.clauseKeys = t.primaryKey.toList := by
  have hcolumn (c : Column) : c.bodyLine.clauseKey? = none := rfl
  have hkey (key : List String) : (BodyLine.primaryKey key).clauseKey? = some key := rfl
  have hforeign (fk : ForeignKey) : fk.bodyLine.clauseKey? = none := rfl
  rw [Block.clauseKeys, filterMap_body_block]
  simp [hcolumn, hkey, hforeign]

/-- The lines of a table declare it. -/
theorem Table.table_block (t : Table) : t.block.table = t := by
  have hkey : t.block.primaryKey = t.primaryKey := by
    rw [Block.primaryKey, clauseKeys_block, inlineKey_block]
    cases t.primaryKey <;> rfl
  rw [Block.table, columns_block, references_block, hkey]
  rfl

theorem Table.accepted_block (t : Table) : t.block.Accepted where
  known_types w hw := by
    have hcolumn (c : Column) : c.bodyLine.typeWord? = some c.type.name := rfl
    have hkey (key : List String) : (BodyLine.primaryKey key).typeWord? = none := rfl
    have hforeign (fk : ForeignKey) : fk.bodyLine.typeWord? = none := rfl
    rw [Block.typeWords, filterMap_body_block] at hw
    simp only [hcolumn, hkey, hforeign, List.filterMap_none, Option.bind_fun_none, Option.toList_none,
      List.append_nil, List.mem_filterMap, Option.some.injEq] at hw
    obtain ⟨c, -, rfl⟩ := hw
    rw [ColumnType.ofWord?_name]
    rfl
  one_clause := by
    rw [clauseKeys_block]
    cases t.primaryKey <;> simp
  one_key := .inr t.inlineKey_block

/-- The lines of a schema declare it. -/
theorem Schema.schema_document (s : Schema) : s.document.schema = s := by
  have htables : s.tables.map (Block.table ∘ Table.block) = s.tables :=
    (List.map_congr_left fun t _ => t.table_block).trans (List.map_id _)
  rw [Document.schema, document, List.map_map, htables]

theorem Schema.DistinctTables.accepted_document (h : s.DistinctTables) : s.document.Accepted where
  blocks := List.forall_mem_map.2 fun t _ => t.accepted_block
  distinct := List.pairwise_map.2 h

end

/-! ### Names that are words -/

/-- A name that consists of letters, digits and `_`, at least one. -/
def IsWord (name : String) : Prop :=
  Grammar.Word name.toList name

theorem isWord_iff {name : String} :
    IsWord name ↔ name.toList ≠ [] ∧ name.toList.all isWordChar = true := by
  rw [IsWord, Grammar.Word, List.all_eq_true]
  exact and_iff_right rfl

instance (name : String) : Decidable (IsWord name) :=
  decidable_of_iff _ isWord_iff.symm

/-- The names of the schema, its tables and their columns are words. -/
structure Schema.Worded (s : Schema) : Prop where
  name : IsWord s.name
  tables : ∀ t ∈ s.tables, IsWord t.name
  columns : ∀ t ∈ s.tables, ∀ c ∈ t.columns, IsWord c.name

section

variable {a b : String} {t : Table}

theorem IsWord.of_sameName (h : IsWord a) (hsame : sameName a b = true) : IsWord b := by
  have hlower : a.toList.map Char.toLower = b.toList.map Char.toLower := by
    rw [← String.toList_map, ← String.toList_map]
    exact congrArg String.toList (sameName_iff.1 hsame)
  refine ⟨rfl, fun hb => h.ne_nil ?_, fun c hc => ?_⟩
  · rw [hb, List.map_nil, List.map_eq_nil_iff] at hlower
    exact hlower
  · have hmem : c.toLower ∈ a.toList.map Char.toLower := hlower ▸ List.mem_map_of_mem hc
    obtain ⟨d, hd, heq⟩ := List.mem_map.1 hmem
    rw [← Grammar.isWordChar_toLower, ← heq, Grammar.isWordChar_toLower]
    exact h.forall_mem d hd

theorem IsWord.of_hasColumn (h : ∀ c ∈ t.columns, IsWord c.name) (hname : t.HasColumn a) :
    IsWord a := by
  obtain ⟨c, hc, hsame⟩ := hname
  exact (h c hc).of_sameName hsame

end

/-- A table whose lines can be written: its names are words and its keys list columns. -/
structure Table.Writable (t : Table) : Prop where
  name : IsWord t.name
  columns : ∀ c ∈ t.columns, IsWord c.name
  primaryKey : ∀ key, t.primaryKey = some key → key ≠ [] ∧ ∀ name ∈ key, IsWord name
  sources : ∀ fk ∈ t.foreignKeys, fk.columns ≠ [] ∧ ∀ name ∈ fk.columns, IsWord name
  targets : ∀ fk ∈ t.foreignKeys, IsWord fk.target ∧ fk.targetColumns ≠ [] ∧
    ∀ name ∈ fk.targetColumns, IsWord name

/-- In a schema with valid keys the names in keys are words because the names of tables and columns
are. -/
theorem Schema.Worded.writable {s : Schema} (h : s.Worded) (hkeyed : s.WellKeyed) :
    ∀ t ∈ s.tables, t.Writable := by
  intro t ht
  have hkeys := hkeyed t ht
  refine ⟨h.tables t ht, h.columns t ht, fun key hkey => ?_, fun fk hfk => ?_, fun fk hfk => ?_⟩
  · obtain ⟨hne, hcolumns⟩ := hkeys.primaryKey key hkey
    refine ⟨hne, fun name hname => ?_⟩
    obtain ⟨c, hc, -⟩ := hcolumns name hname
    exact .of_hasColumn (h.columns t ht) ⟨c, Table.mem_of_column? hc⟩
  · obtain ⟨target, hvalid⟩ := hkeys.foreignKeys fk hfk
    exact ⟨hvalid.columns_ne_nil, fun name hname =>
      .of_hasColumn (h.columns t ht) (hvalid.columns name hname)⟩
  · obtain ⟨target, hvalid⟩ := hkeys.foreignKeys fk hfk
    obtain ⟨hmem, hsame⟩ := mem_of_table? hvalid.found
    exact ⟨(h.tables target hmem).of_sameName hsame, hvalid.targetColumns_ne_nil, fun name hname =>
      .of_hasColumn (h.columns target hmem) (hvalid.targetColumns name hname)⟩

end Overlay
