import Mathlib.Data.List.Forall2
import Overlay.Proofs.Schema.Lookup
import Overlay.Proofs.SchemaText.Grammar
import Overlay.Text.Line

/-!
# Schema texts as documents

A document is what the lines of a schema text stand for: the name of the schema and a block for each
table, a block being the name of a table and the lines inside it. `DocumentLines` says which lines
form a document, given the forms of single lines (`LineForms`).

What a block declares is read off its lines: its columns, its references, and its primary key, which
is either marked on columns or given by a line of its own (`Block.table`). A document is accepted
line by line if its types are known, every table has one key at most and no two tables have the same
name (`Document.Accepted`).
-/

namespace Overlay.SchemaText

open Overlay.Text

/-- A table: its name and the lines inside it. -/
structure Block where
  name : String
  body : List BodyLine
  deriving DecidableEq, Repr

/-- A schema: its name and its tables. -/
structure Document where
  name : String
  blocks : List Block
  deriving DecidableEq, Repr

/-! ### Lines of a document -/

/-- The contents of the lines of a text that are not empty. -/
def contents (text : List Char) : List (List Char) :=
  ((lines text).map content).filter fun line => !line.isEmpty

section

variable {c : Char} {text line : List Char}

theorem mem_of_mem_lines (hline : line ∈ lines text) (hc : c ∈ line) : c ∈ text := by
  fun_induction lines text generalizing line with
  | case1 => simp at hline
  | case2 cs ih =>
    obtain rfl | hline := List.mem_cons.1 hline
    · simp at hc
    · exact List.mem_cons_of_mem _ (ih hline hc)
  | case3 cs ih =>
    obtain rfl | hline := List.mem_cons.1 hline
    · simp at hc
    · exact List.mem_cons_of_mem _ (List.mem_cons_of_mem _ (ih hline hc))
  | case4 d cs _ _ _ _ =>
    rw [List.mem_singleton.1 hline] at hc
    exact List.mem_cons.2 (.inl (List.mem_singleton.1 hc))
  | case5 d cs _ _ first rest hcons ih =>
    rw [hcons] at ih
    obtain rfl | hline := List.mem_cons.1 hline
    · obtain rfl | hc := List.mem_cons.1 hc
      · exact List.mem_cons_self
      · exact List.mem_cons_of_mem _ (ih List.mem_cons_self hc)
    · exact List.mem_cons_of_mem _ (ih (List.mem_cons_of_mem _ hline) hc)

theorem mem_of_mem_beforeComment (hc : c ∈ beforeComment line) : c ∈ line := by
  fun_induction beforeComment line with
  | case1 => exact hc
  | case2 => simp at hc
  | case3 => simp at hc
  | case4 d cs _ _ ih =>
    obtain rfl | hc := List.mem_cons.1 hc
    · exact List.mem_cons_self
    · exact List.mem_cons_of_mem _ (ih hc)

theorem mem_of_mem_content (hc : c ∈ content line) : c ∈ line := by
  rw [content, trim, List.mem_reverse] at hc
  have hcut := List.mem_reverse.1 ((List.dropWhile_sublist _).mem hc)
  exact mem_of_mem_beforeComment ((List.dropWhile_sublist _).mem hcut)

/-- The contents of lines have no characters that the text does not have. -/
theorem mem_of_mem_contents (hline : line ∈ contents text) (hc : c ∈ line) : c ∈ text := by
  obtain ⟨l, hl, rfl⟩ := List.mem_map.1 (List.mem_of_mem_filter hline)
  exact mem_of_mem_lines hl (mem_of_mem_content hc)

end

/-- What single lines stand for: the heads of a schema and of a table with their names, and the
lines inside a table. -/
structure LineForms where
  schemaHead : List Char → String → Prop
  tableHead : List Char → String → Prop
  bodyLine : List Char → BodyLine → Prop

/-- The lines of the grammar. -/
def LineForms.grammar : LineForms :=
  { schemaHead := Grammar.IsSchemaHead
    tableHead := Grammar.IsTableHead
    bodyLine := Grammar.IsBodyLine }

/-- The lines as they are read. -/
def LineForms.read : LineForms :=
  { schemaHead := fun line name => schemaHead? line = some name
    tableHead := fun line name => tableHead? line = some name
    bodyLine := fun line b => bodyLine? line = some b }

/-- The lines of tables: each has a head, the lines inside it and a closing brace. -/
inductive BlockLines (forms : LineForms) : List (List Char) → List Block → Prop where
  | nil : BlockLines forms [] []
  | cons {head : List Char} {inner rest : List (List Char)} {name : String}
      {body : List BodyLine} {blocks : List Block} :
      forms.tableHead head name → List.Forall₂ forms.bodyLine inner body →
        BlockLines forms rest blocks →
          BlockLines forms (head :: inner ++ ['}'] :: rest) ({ name, body } :: blocks)

/-- The lines of a document: the head of a schema and its tables. -/
inductive DocumentLines (forms : LineForms) : List (List Char) → Document → Prop where
  | document {head : List Char} {rest : List (List Char)} {name : String} {blocks : List Block} :
      forms.schemaHead head name → BlockLines forms rest blocks →
        DocumentLines forms (head :: rest) { name, blocks }

/-! ### What a line declares -/

/-- What a constraint says about null values, if it says something. -/
def Constraint.nullability? : Constraint → Option Bool
  | .primaryKey => some false
  | .notNull => some false
  | .nullable => some true
  | .references _ _ => none

/-- The reference that a constraint of the column makes. -/
def Constraint.reference? (column : String) : Constraint → Option ForeignKey
  | .references target targetColumns => some { columns := [column], target, targetColumns }
  | _ => none

/-- Whether a column with these constraints is nullable: the last that says something counts. -/
def isNullable (constraints : List Constraint) : Bool :=
  (constraints.filterMap Constraint.nullability?).getLastD true

namespace BodyLine

/-- The word that stands for the type of a column. -/
def typeWord? : BodyLine → Option String
  | .column _ typeWord _ => some typeWord
  | _ => none

/-- The column, if it is one of a known type. -/
def column? : BodyLine → Option Column
  | .column name typeWord constraints =>
    (ColumnType.ofWord? typeWord).map fun type => { name, type, nullable := isNullable constraints }
  | _ => none

/-- The references to other tables, of a foreign key line or of a column. -/
def references : BodyLine → List ForeignKey
  | .primaryKey _ => []
  | .foreignKey columns target targetColumns => [{ columns, target, targetColumns }]
  | .column name _ constraints => constraints.filterMap (Constraint.reference? name)

/-- The name of the column for each time that it is marked as primary key. -/
def inlineKey : BodyLine → List String
  | .column name _ constraints => (constraints.filter (· = .primaryKey)).map fun _ => name
  | _ => []

/-- The columns of a primary key line. -/
def clauseKey? : BodyLine → Option (List String)
  | .primaryKey columns => some columns
  | _ => none

/-- A key line lists columns of its table. -/
def ListsColumns : BodyLine → Prop
  | .primaryKey columns => columns ≠ []
  | .foreignKey columns _ _ => columns ≠ []
  | .column _ _ _ => True

end BodyLine

/-! ### What a block declares -/

namespace Block

/-- The words that stand for types. -/
def typeWords (b : Block) : List String :=
  b.body.filterMap BodyLine.typeWord?

/-- The columns of known types. -/
def columns (b : Block) : List Column :=
  b.body.filterMap BodyLine.column?

/-- The references to tables. -/
def references (b : Block) : List ForeignKey :=
  b.body.flatMap BodyLine.references

/-- The columns marked as primary key, in order. -/
def inlineKey (b : Block) : List String :=
  b.body.flatMap BodyLine.inlineKey

/-- The columns of each primary key line. -/
def clauseKeys (b : Block) : List (List String) :=
  b.body.filterMap BodyLine.clauseKey?

/-- The primary key: that of the first primary key line, else the marked columns, if there are
any. -/
def primaryKey (b : Block) : Option (List String) :=
  b.clauseKeys.head?.or (if b.inlineKey = [] then none else some b.inlineKey)

/-- The table that a block declares. -/
def table (b : Block) : Table :=
  { name := b.name, columns := b.columns, primaryKey := b.primaryKey, foreignKeys := b.references }

/-- All types are known, and there is at most one primary key line and none beside marked
columns. -/
structure Accepted (b : Block) : Prop where
  known_types : ∀ w ∈ b.typeWords, (ColumnType.ofWord? w).isSome
  one_clause : b.clauseKeys.length ≤ 1
  one_key : b.clauseKeys = [] ∨ b.inlineKey = []

section

variable {b : Block}

theorem ne_nil_of_primaryKey (h : ∀ line ∈ b.body, line.ListsColumns) {key : List String}
    (hkey : b.primaryKey = some key) : key ≠ [] := by
  unfold primaryKey at hkey
  rcases Option.or_eq_some_iff.1 hkey with hclause | ⟨-, hinline⟩
  · obtain ⟨line, hline, hcolumns⟩ := List.mem_filterMap.1 (List.mem_of_head? hclause)
    have hlists := h line hline
    cases line <;> simp_all [BodyLine.clauseKey?, BodyLine.ListsColumns]
  · split at hinline
    · cases hinline
    · next hne =>
      rw [← Option.some.inj hinline]
      exact hne

theorem columns_ne_nil_of_mem_references (h : ∀ line ∈ b.body, line.ListsColumns) {fk : ForeignKey}
    (hfk : fk ∈ b.references) : fk.columns ≠ [] := by
  obtain ⟨line, hline, hmem⟩ := List.mem_flatMap.1 hfk
  have hlists := h line hline
  cases line with
  | primaryKey columns => simp [BodyLine.references] at hmem
  | foreignKey columns target targetColumns =>
    rw [List.mem_singleton.1 hmem]
    exact hlists
  | column name typeWord constraints =>
    obtain ⟨c, -, hc⟩ := List.mem_filterMap.1 hmem
    cases c with
    | references target targetColumns =>
      rw [← Option.some.inj hc]
      exact List.cons_ne_nil _ _
    | primaryKey => cases hc
    | notNull => cases hc
    | nullable => cases hc

end

end Block

/-! ### Comparing forms of lines -/

section

variable {forms forms' : LineForms} {ls : List (List Char)} {blocks : List Block} {d : Document}

theorem BlockLines.imp (h : BlockLines forms ls blocks)
    (hhead : ∀ l ∈ ls, ∀ name, forms.tableHead l name → forms'.tableHead l name)
    (hbody : ∀ l ∈ ls, ∀ b, forms.bodyLine l b → forms'.bodyLine l b) :
    BlockLines forms' ls blocks := by
  induction h with
  | nil => exact .nil
  | @cons head inner rest name body blocks hname hinner _ ih =>
    refine .cons (hhead head (by simp) name hname) ?_
      (ih (fun l hl => hhead l (by simp [hl])) fun l hl => hbody l (by simp [hl]))
    rw [List.forall₂_iff_zip] at hinner ⊢
    exact ⟨hinner.1, fun hmem => hbody _ (by simp [(List.of_mem_zip hmem).1]) _ (hinner.2 hmem)⟩

theorem DocumentLines.imp (h : DocumentLines forms ls d)
    (hschema : ∀ l ∈ ls, ∀ name, forms.schemaHead l name → forms'.schemaHead l name)
    (hhead : ∀ l ∈ ls, ∀ name, forms.tableHead l name → forms'.tableHead l name)
    (hbody : ∀ l ∈ ls, ∀ b, forms.bodyLine l b → forms'.bodyLine l b) :
    DocumentLines forms' ls d := by
  obtain ⟨hname, hblocks⟩ := h
  exact .document (hschema _ (by simp) _ hname)
    (hblocks.imp (fun l hl => hhead l (by simp [hl])) fun l hl => hbody l (by simp [hl]))

theorem Grammar.Names.ne_nil {cs : List Char} {names : List String} (h : Grammar.Names cs names) :
    names ≠ [] := by
  cases h
  exact List.cons_ne_nil _ _

theorem Grammar.KeyClause.ne_nil {keyword : String} {cs : List Char} {names : List String}
    (h : Grammar.KeyClause keyword cs names) : names ≠ [] := by
  cases h with
  | clause _ _ _ _ hnames => exact hnames.ne_nil

theorem Grammar.IsBodyLine.listsColumns {cs : List Char} {b : BodyLine}
    (h : Grammar.IsBodyLine cs b) : b.ListsColumns := by
  cases h with
  | primaryKey hkey => exact hkey.ne_nil
  | foreignKey hkey => exact hkey.ne_nil
  | column => exact trivial

/-- What holds of single lines inside a table holds of the lines of all blocks. -/
theorem BlockLines.forall_body {p : BodyLine → Prop} (h : BlockLines forms ls blocks)
    (hbody : ∀ l b, forms.bodyLine l b → p b) : ∀ b ∈ blocks, ∀ line ∈ b.body, p line := by
  induction h with
  | nil => simp
  | @cons head inner rest name body blocks _ hinner _ ih =>
    have hlines : List.Forall₂ (fun line _ => p line ∧ True) body inner :=
      hinner.flip.imp fun line l hl => ⟨hbody l line hl, trivial⟩
    exact List.forall_mem_cons.2 ⟨((List.forall₂_and_left _ _).1 hlines).1, ih⟩

theorem DocumentLines.listsColumns (h : DocumentLines .grammar ls d) :
    ∀ b ∈ d.blocks, ∀ line ∈ b.body, line.ListsColumns := by
  obtain ⟨-, hblocks⟩ := h
  exact hblocks.forall_body fun _ _ => Grammar.IsBodyLine.listsColumns

end

namespace Document

/-- The schema that a document declares; its references are not resolved. -/
def schema (d : Document) : Schema :=
  { name := d.name, tables := d.blocks.map Block.table }

/-- Every table is accepted and no two have the same name. -/
structure Accepted (d : Document) : Prop where
  blocks : ∀ b ∈ d.blocks, b.Accepted
  distinct : d.blocks.Pairwise fun a b => sameName a.name b.name = false

theorem Accepted.distinctTables {d : Document} (h : d.Accepted) : d.schema.DistinctTables :=
  List.pairwise_map.2 h.distinct

end Document

end Overlay.SchemaText
