import Overlay.Proofs.Schema.Distinct
import Overlay.Proofs.SchemaText.Acceptance

/-!
# Names that are repeated in a table

Two tables of a text may not have the same name, but inside a table nothing is compared: a column
may be declared or marked twice and a key may list it twice. So the columns, the primary key and the
references of a table name no column twice exactly if its lines do not
(`Schema.unambiguous_iff_of_read`).
-/

namespace Overlay

open SchemaText Text

/-- The columns have different names, and neither the primary key nor a foreign key lists a column
twice. -/
structure Table.Unambiguous (t : Table) : Prop where
  columns : t.DistinctColumns
  primaryKey : ∀ key, t.primaryKey = some key → DistinctNames key
  foreignKeys : ∀ fk ∈ t.foreignKeys, DistinctNames fk.columns

/-- Filling in the columns that references leave out changes none of these lists. -/
theorem Table.unambiguous_resolved_iff {s : Schema} {t : Table} :
    (t.resolved s).Unambiguous ↔ t.Unambiguous := by
  have hforeign : (∀ fk ∈ (t.resolved s).foreignKeys, DistinctNames fk.columns) ↔
      ∀ fk ∈ t.foreignKeys, DistinctNames fk.columns := List.forall_mem_map
  constructor
  · intro h
    exact ⟨h.columns, h.primaryKey, hforeign.1 h.foreignKeys⟩
  · intro h
    exact ⟨h.columns, h.primaryKey, hforeign.2 h.foreignKeys⟩

namespace SchemaText

/-! ### The names in a line -/

namespace BodyLine

/-- The name of the column that a line declares. -/
def columnName? : BodyLine → Option String
  | .column name _ _ => some name
  | _ => none

/-- The columns that a key line lists. -/
def keyColumns? : BodyLine → Option (List String)
  | .primaryKey columns => some columns
  | .foreignKey columns _ _ => some columns
  | .column _ _ _ => none

/-- A line marks its own column, once or more often. -/
theorem exists_inlineKey_eq (line : BodyLine) : ∃ n name, line.inlineKey = List.replicate n name := by
  cases line with
  | column name typeWord constraints => exact ⟨_, name, List.map_const ..⟩
  | primaryKey columns => exact ⟨0, "", rfl⟩
  | foreignKey columns target targetColumns => exact ⟨0, "", rfl⟩

/-- The marked columns are some of the declared columns, in order, if no line marks its column
twice. -/
theorem inlineKey_sublist {body : List BodyLine} (h : ∀ line ∈ body, line.inlineKey.length ≤ 1) :
    (body.flatMap inlineKey).Sublist (body.filterMap columnName?) := by
  induction body with
  | nil => exact .slnil
  | cons line body ih =>
    obtain ⟨hline, hbody⟩ := List.forall_mem_cons.1 h
    have hrest := ih hbody
    cases line with
    | primaryKey columns => exact hrest
    | foreignKey columns target targetColumns => exact hrest
    | column name typeWord constraints =>
      have hmarks : (inlineKey (.column name typeWord constraints)).Sublist [name] := by
        have hconst : inlineKey (.column name typeWord constraints) = List.replicate _ name :=
          List.map_const ..
        rw [hconst] at hline ⊢
        rw [List.length_replicate] at hline
        exact (List.replicate_sublist_replicate name).2 hline
      exact hmarks.append hrest

/-- A column of its own is all that a reference of a column has. -/
theorem distinct_of_mem_references {line : BodyLine} {fk : ForeignKey}
    (h : ∀ names, line.keyColumns? = some names → DistinctNames names)
    (hfk : fk ∈ line.references) : DistinctNames fk.columns := by
  cases line with
  | primaryKey columns => cases hfk
  | foreignKey columns target targetColumns =>
    rw [List.mem_singleton.1 hfk]
    exact h columns rfl
  | column name typeWord constraints =>
    obtain ⟨c, -, hc⟩ := List.mem_filterMap.1 hfk
    cases c with
    | references target targetColumns =>
      rw [← Option.some.inj hc]
      exact List.pairwise_singleton _ _
    | primaryKey => cases hc
    | notNull => cases hc
    | nullable => cases hc

end BodyLine

/-! ### The names in a block -/

namespace Block

/-- No column is declared twice, none is marked twice in its line, and no key line lists one
twice. -/
structure NamesOnce (b : Block) : Prop where
  columns : DistinctNames (b.body.filterMap BodyLine.columnName?)
  marks : ∀ line ∈ b.body, line.inlineKey.length ≤ 1
  keys : ∀ line ∈ b.body, ∀ names, line.keyColumns? = some names → DistinctNames names

variable {b : Block} {key : List String}

/-- If all types are known, every column line declares a column. -/
theorem Accepted.columnNames_eq (h : b.Accepted) :
    b.table.columnNames = b.body.filterMap BodyLine.columnName? := by
  have hline (line : BodyLine) (hline : line ∈ b.body) :
      line.column?.map Column.name = line.columnName? := by
    cases line with
    | column name typeWord constraints =>
      have hknown := h.known_types typeWord (List.mem_filterMap.2 ⟨_, hline, rfl⟩)
      obtain ⟨type, htype⟩ := Option.isSome_iff_exists.1 hknown
      simp [BodyLine.column?, BodyLine.columnName?, htype]
    | primaryKey columns => rfl
    | foreignKey columns target targetColumns => rfl
  change (b.body.filterMap BodyLine.column?).map Column.name = _
  rw [List.map_filterMap]
  exact List.filterMap_congr hline

/-- The primary key is that of the one primary key line. -/
theorem Accepted.primaryKey_of_clause (h : b.Accepted) (hkey : .primaryKey key ∈ b.body) :
    b.primaryKey = some key := by
  have hmem : key ∈ b.clauseKeys := List.mem_filterMap.2 ⟨_, hkey, rfl⟩
  obtain ⟨other, hclauses⟩ := List.length_eq_one_iff.1
    (Nat.le_antisymm h.one_clause (List.length_pos_of_mem hmem))
  rw [hclauses, List.mem_singleton] at hmem
  rw [primaryKey, hclauses, hmem]
  rfl

/-- The primary key is made up of the marked columns, if there are any. -/
theorem Accepted.primaryKey_of_marks (h : b.Accepted) (hmarks : b.inlineKey ≠ []) :
    b.primaryKey = some b.inlineKey := by
  rw [primaryKey, h.one_key.resolve_right hmarks, if_neg hmarks]
  rfl

theorem Accepted.namesOnce_of_unambiguous (h : b.Accepted) (htable : b.table.Unambiguous) :
    b.NamesOnce where
  columns := by
    rw [← h.columnNames_eq]
    exact htable.columns
  marks line hline := by
    obtain ⟨n, name, hinline⟩ := line.exists_inlineKey_eq
    by_cases hnil : b.inlineKey = []
    · rw [List.flatMap_eq_nil_iff.1 hnil line hline]
      exact Nat.zero_le 1
    · have hkey := htable.primaryKey b.inlineKey (h.primaryKey_of_marks hnil)
      have hsublist : line.inlineKey.Sublist b.inlineKey :=
        List.sublist_flatten_of_mem (List.mem_map_of_mem hline)
      have hmarks := hkey.sublist hsublist
      rw [hinline] at hmarks ⊢
      rw [List.length_replicate]
      exact DistinctNames.length_le_one_of_replicate hmarks
  keys line hline names hnames := by
    cases line with
    | primaryKey columns =>
      obtain rfl := Option.some.inj hnames
      exact htable.primaryKey columns (h.primaryKey_of_clause hline)
    | foreignKey columns target targetColumns =>
      obtain rfl := Option.some.inj hnames
      exact htable.foreignKeys ⟨columns, target, targetColumns⟩
        (List.mem_flatMap.2 ⟨_, hline, List.mem_singleton_self _⟩)
    | column name typeWord constraints => cases hnames

theorem Accepted.unambiguous_of_namesOnce (h : b.Accepted) (honce : b.NamesOnce) :
    b.table.Unambiguous where
  columns := by
    rw [Table.DistinctColumns, h.columnNames_eq]
    exact honce.columns
  primaryKey key hkey := by
    obtain hclause | ⟨-, hinline⟩ := Option.or_eq_some_iff.1 hkey
    · obtain ⟨line, hline, hcolumns⟩ := List.mem_filterMap.1 (List.mem_of_head? hclause)
      cases line with
      | primaryKey columns => exact honce.keys _ hline key hcolumns
      | foreignKey columns target targetColumns => cases hcolumns
      | column name typeWord constraints => cases hcolumns
    · obtain ⟨-, hinline⟩ := Option.ite_none_left_eq_some.1 hinline
      rw [← Option.some.inj hinline]
      exact honce.columns.sublist (BodyLine.inlineKey_sublist honce.marks)
  foreignKeys fk hfk := by
    obtain ⟨line, hline, hmem⟩ := List.mem_flatMap.1 hfk
    exact BodyLine.distinct_of_mem_references (honce.keys line hline) hmem

theorem Accepted.unambiguous_table_iff (h : b.Accepted) :
    b.table.Unambiguous ↔ b.NamesOnce :=
  ⟨h.namesOnce_of_unambiguous, h.unambiguous_of_namesOnce⟩

end Block

end SchemaText

/-! ### Texts -/

/-- The tables of a text that is read have different names. A table names no column twice exactly if
the lines of its block do not. -/
theorem Schema.unambiguous_iff_of_read {text : String} {s : Schema} (h : read text = .ok s) :
    s.DistinctTables ∧
      ∃ d, DocumentLines .read (contents text.toList) d ∧
        List.Forall₂ (fun b t => t.name = b.name ∧ (t.Unambiguous ↔ b.NamesOnce)) d.blocks
          s.tables := by
  obtain ⟨d, hlines, haccepted, -, rfl, -⟩ := read_eq_ok_iff.1 h
  refine ⟨haccepted.distinctTables.resolved, d, hlines, ?_⟩
  have htables : d.schema.resolved.tables =
      d.blocks.map fun b => b.table.resolved d.schema := List.map_map ..
  rw [htables, List.forall₂_map_right_iff, List.forall₂_same]
  intro b hb
  refine ⟨rfl, ?_⟩
  rw [Table.unambiguous_resolved_iff]
  exact (haccepted.blocks b hb).unambiguous_table_iff

/-- A text whose table declares a column twice, in letters of another case, and lists it twice in
both of its keys. -/
def Schema.repeatingText : String :=
  "schema s\ntable t\x7b\na int\nA int\nprimary key (a, A)\nforeign key (a, a) references t\n\x7d"

/-- The table of this text. -/
def Table.repeating : Table :=
  { name := "t"
    columns :=
      [{ name := "a", type := .integer, nullable := true },
        { name := "A", type := .integer, nullable := true }]
    primaryKey := some ["a", "A"]
    foreignKeys := [{ columns := ["a", "a"], target := "t", targetColumns := ["a", "A"] }] }

/-- The schema of this text. -/
def Schema.repeating : Schema :=
  { name := "s", tables := [Table.repeating] }

theorem Schema.read_repeatingText : read repeatingText = .ok repeating := by
  decide +kernel

theorem Schema.unambiguous_iff_of_read_repeating :
    read repeatingText = .ok repeating ∧ repeating.DistinctTables ∧
      ∃ d, DocumentLines .read (contents repeatingText.toList) d ∧
        List.Forall₂ (fun b t => t.name = b.name ∧ (t.Unambiguous ↔ b.NamesOnce)) d.blocks
          repeating.tables :=
  ⟨read_repeatingText, unambiguous_iff_of_read read_repeatingText⟩

/-- A text is read although its table repeats a column in every way. -/
theorem Schema.exists_repeated_column :
    ∃ s, read repeatingText = .ok s ∧ ∃ t ∈ s.tables, ¬t.DistinctColumns ∧
      (∃ key, t.primaryKey = some key ∧ ¬DistinctNames key) ∧
        ∃ fk ∈ t.foreignKeys, ¬DistinctNames fk.columns := by
  have hcases : ¬DistinctNames ["a", "A"] := by decide +kernel
  have htwice : ¬DistinctNames ["a", "a"] := fun h =>
    absurd (DistinctNames.length_le_one_of_replicate (n := 2) h) (by decide)
  exact ⟨repeating, read_repeatingText, Table.repeating, List.mem_singleton_self _, hcases,
    ⟨["a", "A"], rfl, hcases⟩, _, List.mem_singleton_self _, htwice⟩

end Overlay
