import Overlay.Proofs.SchemaText.Writing

/-!
# Names in a text

A schema that was read from a text has names that are words, distinct tables and valid keys
(`Schema.worded_of_read`, `Schema.valid_of_read`).
-/

namespace Overlay

open SchemaText Text

namespace SchemaText

section

variable {forms : LineForms} {line : List Char} {ls : List (List Char)} {blocks : List Block}
  {name typeWord : String} {constraints : List Constraint}

/-- What holds of the names in single heads of tables holds of the names of all blocks. -/
theorem BlockLines.forall_name {p : String → Prop} (h : BlockLines forms ls blocks)
    (hhead : ∀ l name, forms.tableHead l name → p name) : ∀ b ∈ blocks, p b.name := by
  induction h with
  | nil => simp
  | cons hname _ _ ih => exact List.forall_mem_cons.2 ⟨hhead _ _ hname, ih⟩

theorem isWord_of_schemaHead? (h : schemaHead? line = some name) : IsWord name := by
  obtain @⟨k, g, w, _, -, -, hword⟩ := Grammar.schemaHead?_eq_some_iff.1 h
  obtain ⟨rfl, hne, hchars⟩ := hword
  exact ⟨rfl, hne, hchars⟩

theorem isWord_of_tableHead? (h : tableHead? line = some name) : IsWord name := by
  obtain @⟨k, g, w, g₁, _, -, -, hword, -⟩ := Grammar.tableHead?_eq_some_iff.1 h
  obtain ⟨rfl, hne, hchars⟩ := hword
  exact ⟨rfl, hne, hchars⟩

/-- The name of a column is a word, also in lines that no grammar describes because they have KELVIN
SIGN. -/
theorem isWord_of_bodyLine? (h : bodyLine? line = some (.column name typeWord constraints)) :
    IsWord name := by
  rw [bodyLine?, whole_eq_some_iff] at h
  simp only [Option.orElse_eq_orElse, Option.orElse_eq_or, Option.or_eq_some_iff] at h
  obtain h | ⟨-, h | ⟨-, h⟩⟩ := h
  · simp [primaryKeyLine, Option.bind_eq_some_iff] at h
  · simp [foreignKeyLine, Option.bind_eq_some_iff] at h
  · simp only [Grammar.columnLine_eq, Option.bind_eq_some_iff, Option.some.injEq, Prod.mk.injEq,
      Prod.exists, Grammar.word_eq_some_iff_append] at h
    obtain ⟨_, _, ⟨w, ⟨rfl, hne, hchars⟩, -⟩, _, -, _, _, -, ⟨⟨⟩, -⟩⟩ := h
    exact ⟨rfl, hne, hchars⟩

theorem BodyLine.exists_of_column? {l : BodyLine} {c : Column} (h : l.column? = some c) :
    ∃ typeWord constraints, l = .column c.name typeWord constraints := by
  cases l with
  | column name typeWord constraints =>
    obtain ⟨type, -, rfl⟩ := Option.map_eq_some_iff.1 h
    exact ⟨typeWord, constraints, rfl⟩
  | primaryKey columns => cases h
  | foreignKey columns target targetColumns => cases h

end

end SchemaText

namespace Schema

variable {text : String} {s : Schema}

theorem worded_of_read (h : read text = .ok s) : s.Worded := by
  obtain ⟨d, hlines, -, -, rfl, -⟩ := read_eq_ok_iff.1 h
  generalize contents text.toList = ls at hlines
  obtain ⟨hname, hblocks⟩ := hlines
  have hcolumns := hblocks.forall_body
    (p := fun l => ∀ c, l.column? = some c → IsWord c.name) fun line l hline c hc => by
      obtain ⟨typeWord, constraints, rfl⟩ := BodyLine.exists_of_column? hc
      exact isWord_of_bodyLine? hline
  refine ⟨isWord_of_schemaHead? hname, ?_, ?_⟩
  · intro t ht
    simp only [resolved, Document.schema, List.map_map, List.mem_map] at ht
    obtain ⟨b, hb, rfl⟩ := ht
    exact hblocks.forall_name (fun _ _ => isWord_of_tableHead?) b hb
  · intro t ht c hc
    simp only [resolved, Document.schema, List.map_map, List.mem_map] at ht
    obtain ⟨b, hb, rfl⟩ := ht
    obtain ⟨l, hl, hcolumn⟩ := List.mem_filterMap.1 hc
    exact hcolumns b hb l hl c hcolumn

theorem valid_of_read (h : read text = .ok s) : s.DistinctTables ∧ s.WellKeyed := by
  obtain ⟨d, -, haccepted, -, rfl, hkeyed⟩ := read_eq_ok_iff.1 h
  exact ⟨haccepted.distinctTables.resolved, hkeyed⟩

end Schema

end Overlay
