import Overlay.Proofs.SchemaText.Writing

/-!
# Reading a written schema

The text of a schema whose names are words is read back to the same schema, if its tables are
distinct and its keys valid (`Schema.read_text`). No line of the text is cut or trimmed
(`IsContent`), and each line is read as what it was written for, KELVIN SIGN in a name or not: the
only keywords with the letter `k` stand where the text has no name.
-/

namespace Overlay

open SchemaText SchemaText.Grammar Text

/-! ### Lines of which nothing is cut off -/

/-- A line without line break, without comment mark and without white space at its ends. -/
structure IsContent (line : List Char) : Prop where
  ne_nil : line ≠ []
  chars : ∀ c ∈ line, c ≠ '\n' ∧ c ≠ '\r' ∧ c ≠ '#' ∧ c ≠ '-'
  first : Free isBlank line
  last : Free isBlank line.reverse

section

variable {cs line : List Char} {ls : List (List Char)}

theorem lines_append_newline (h : ∀ c ∈ line, c ≠ '\n' ∧ c ≠ '\r') :
    lines (line ++ '\n' :: cs) = line :: lines cs := by
  induction line with
  | nil => rfl
  | cons c line ih =>
    obtain ⟨⟨hnewline, hreturn⟩, hline⟩ := List.forall_mem_cons.1 h
    rw [List.cons_append, lines, ih hline]
    · exact hnewline
    · exact fun _ hc _ => hreturn hc

theorem beforeComment_eq_self (h : ∀ c ∈ line, c ≠ '#' ∧ c ≠ '-') : beforeComment line = line := by
  induction line with
  | nil => rfl
  | cons c line ih =>
    obtain ⟨⟨hnumber, hdash⟩, hline⟩ := List.forall_mem_cons.1 h
    rw [beforeComment, ih hline]
    · exact hnumber
    · exact fun _ hc _ => hdash hc

theorem dropWhile_eq_self_of_free {p : Char → Bool} (h : Free p cs) : cs.dropWhile p = cs :=
  dropWhile_append_of_free (u := []) (by simp) h

theorem trim_eq_self (hfirst : Free isBlank line) (hlast : Free isBlank line.reverse) :
    trim line = line := by
  rw [trim, dropWhile_eq_self_of_free hfirst, dropWhile_eq_self_of_free hlast,
    List.reverse_reverse]

theorem IsContent.content_eq (h : IsContent line) : content line = line := by
  rw [content, beforeComment_eq_self fun c hc => (h.chars c hc).2.2]
  exact trim_eq_self h.first h.last

/-- The contents of a text are its lines, if nothing is cut off from any of them. -/
theorem contents_flatMap (h : ∀ line ∈ ls, IsContent line) :
    contents (ls.flatMap (· ++ ['\n'])) = ls := by
  induction ls with
  | nil => rfl
  | cons line ls ih =>
    obtain ⟨hline, hls⟩ := List.forall_mem_cons.1 h
    have hcut : lines ((line :: ls).flatMap (· ++ ['\n'])) =
        line :: lines (ls.flatMap (· ++ ['\n'])) := by
      rw [List.flatMap_cons, List.append_assoc]
      exact lines_append_newline fun c hc => ⟨(hline.chars c hc).1, (hline.chars c hc).2.1⟩
    have hnonempty : (!(line.isEmpty)) = true := by
      simpa using hline.ne_nil
    rw [contents, hcut, List.map_cons, hline.content_eq, List.filter_cons,
      if_pos hnonempty]
    exact congrArg (line :: ·) (ih hls)

end

/-! ### The characters of written lines -/

/-- White space is not alphanumeric. -/
theorem isBlank_of_isWordChar {c : Char} (h : isWordChar c = true) : isBlank c = false := by
  have hne (n : Nat) (hn : isWordChar (Char.ofNat n) = false) : c.toNat ≠ n := by
    rintro rfl
    rw [Char.ofNat_toNat, h] at hn
    cases hn
  have hcontrols : ∀ k < 5, isWordChar (Char.ofNat (0x9 + k)) = false := by decide +kernel
  have hspaces : ∀ k < 11, isWordChar (Char.ofNat (0x2000 + k)) = false := by decide +kernel
  have hothers : ∀ n ∈ [0x20, 0x85, 0xA0, 0x1680, 0x2028, 0x2029, 0x202F, 0x205F, 0x3000],
      isWordChar (Char.ofNat n) = false := by decide +kernel
  rw [Bool.eq_false_iff]
  intro hblank
  simp only [isBlank, Bool.or_eq_true, Bool.and_eq_true, decide_eq_true_eq, beq_iff_eq, or_assoc]
    at hblank
  rcases hblank with hrange | hn | hn | hn | hn | hrange | hn | hn | hn | hn | hn
  · exact hne _ (hcontrols (c.toNat - 0x9) (by omega)) (by omega)
  · exact hne _ (hothers _ (by simp)) hn
  · exact hne _ (hothers _ (by simp)) hn
  · exact hne _ (hothers _ (by simp)) hn
  · exact hne _ (hothers _ (by simp)) hn
  · exact hne _ (hspaces (c.toNat - 0x2000) (by omega)) (by omega)
  · exact hne _ (hothers _ (by simp)) hn
  · exact hne _ (hothers _ (by simp)) hn
  · exact hne _ (hothers _ (by simp)) hn
  · exact hne _ (hothers _ (by simp)) hn
  · exact hne _ (hothers _ (by simp)) hn

/-- A character of a written line: one of a word, a space or a symbol. -/
def IsLineChar (c : Char) : Prop :=
  isWordChar c = true ∨ c ∈ [' ', ',', '(', ')', '\x7b', '\x7d']

instance (c : Char) : Decidable (IsLineChar c) :=
  inferInstanceAs (Decidable (_ ∨ _))

theorem IsLineChar.kept {c : Char} (h : IsLineChar c) :
    c ≠ '\n' ∧ c ≠ '\r' ∧ c ≠ '#' ∧ c ≠ '-' := by
  refine ⟨?_, ?_, ?_, ?_⟩ <;> (rintro rfl; revert h; decide)

/-- A text that may stand in a line. -/
def IsLinePart (text : String) : Prop :=
  ∀ c ∈ text.toList, IsLineChar c

instance (text : String) : Decidable (IsLinePart text) :=
  List.decidableBAll _ text.toList

section

variable {a b name : String} {names : List String}

theorem IsLinePart.append (ha : IsLinePart a) (hb : IsLinePart b) : IsLinePart (a ++ b) := by
  intro c hc
  rw [String.toList_append, List.mem_append] at hc
  exact hc.elim (ha c) (hb c)

theorem IsWord.isLinePart (h : IsWord name) : IsLinePart name :=
  fun c hc => .inl (h.forall_mem c hc)

theorem IsWord.newline_notMem (h : IsWord name) : '\n' ∉ name.toList :=
  fun hmem => absurd (h.isLinePart _ hmem).kept.1 (by simp)

theorem isLinePart_intercalate (h : ∀ name ∈ names, IsWord name) :
    IsLinePart (String.intercalate ", " names) := by
  induction names with
  | nil => decide
  | cons name names ih =>
    obtain ⟨hname, hnames⟩ := List.forall_mem_cons.1 h
    cases names with
    | nil => simpa using hname.isLinePart
    | cons other names =>
      rw [String.intercalate_cons_cons]
      exact (hname.isLinePart.append (by decide)).append (ih hnames)

theorem isLinePart_namesText (h : ∀ name ∈ names, IsWord name) : IsLinePart (namesText names) :=
  (IsLinePart.append (by decide) (isLinePart_intercalate h)).append (by decide)

/-! ### Written lines are contents -/

theorem free_of_forall {p : Char → Bool} {u : List Char} (h : ∀ c ∈ u, p c = false) : Free p u := by
  rw [← List.append_nil u]
  exact free_append h free_nil

theorem free_append_left {p : Char → Bool} {u v : List Char} (h : Free p u) (hne : u ≠ []) :
    Free p (u ++ v) := by
  cases u with
  | nil => exact absurd rfl hne
  | cons c u => exact free_cons.2 (free_cons.1 h)

theorem IsWord.isBlank_eq_false (h : IsWord name) : ∀ c ∈ name.toList, isBlank c = false :=
  fun c hc => isBlank_of_isWordChar (h.forall_mem c hc)

theorem IsWord.free_isBlank (h : IsWord name) : Free isBlank name.toList :=
  free_of_forall h.isBlank_eq_false

theorem IsWord.free_reverse (h : IsWord name) : Free isBlank name.toList.reverse :=
  free_of_forall fun c hc => h.isBlank_eq_false c (List.mem_reverse.1 hc)

theorem free_toList_append (hne : a.toList ≠ []) (h : Free isBlank a.toList) :
    Free isBlank (a ++ b).toList := by
  rw [String.toList_append]
  exact free_append_left h hne

theorem free_reverse_append (hne : b.toList ≠ []) (h : Free isBlank b.toList.reverse) :
    Free isBlank (a ++ b).toList.reverse := by
  rw [String.toList_append, List.reverse_append]
  exact free_append_left h (List.reverse_eq_nil_iff.not.2 hne)

/-- A written line starts and ends with a character that is no white space. -/
theorem isContent_append (ha : IsLinePart a) (hb : IsLinePart b) (hne : a.toList ≠ [])
    (hne' : b.toList ≠ []) (hfirst : Free isBlank a.toList)
    (hlast : Free isBlank b.toList.reverse) : IsContent (a ++ b).toList where
  ne_nil := by simp [hne]
  chars c hc := (ha.append hb c hc).kept
  first := free_toList_append hne hfirst
  last := free_reverse_append hne' hlast

theorem isContent_schemaLine (h : IsWord name) : IsContent ("schema " ++ name).toList :=
  isContent_append (by decide) h.isLinePart (by decide) h.ne_nil (by decide) h.free_reverse

theorem isContent_tableLine (h : IsWord name) : IsContent ("table " ++ name ++ " \x7b").toList :=
  isContent_append (IsLinePart.append (by decide) h.isLinePart) (by decide) (by simp) (by decide)
    (free_toList_append (by decide) (by decide)) (by decide)

theorem ColumnType.isWord_name (type : ColumnType) : IsWord type.name := by
  cases type <;> decide

theorem Column.isContent_line {c : Column} (h : IsWord c.name) : IsContent c.line.toList := by
  have htype := c.type.isWord_name
  have hpart : IsLinePart (c.name ++ " ") := h.isLinePart.append (by decide)
  have hfirst : Free isBlank (c.name ++ " ").toList := free_toList_append h.ne_nil h.free_isBlank
  rw [line]
  cases c.nullable with
  | true =>
    rw [if_pos rfl, String.append_empty]
    exact isContent_append hpart htype.isLinePart (by simp) htype.ne_nil hfirst htype.free_reverse
  | false =>
    exact isContent_append (hpart.append htype.isLinePart) (by decide) (by simp) (by decide)
      (free_toList_append (by simp) hfirst) (by decide)

theorem toList_namesText_ne_nil : (namesText names).toList ≠ [] := by
  simp [namesText]

theorem free_reverse_namesText : Free isBlank (namesText names).toList.reverse :=
  free_reverse_append (by decide) (by decide)

theorem isContent_primaryKeyText (h : ∀ name ∈ names, IsWord name) :
    IsContent (primaryKeyText names).toList :=
  isContent_append (by decide) (isLinePart_namesText h) (by decide) toList_namesText_ne_nil
    (by decide) free_reverse_namesText

theorem ForeignKey.isContent_line {fk : ForeignKey} (hcolumns : ∀ name ∈ fk.columns, IsWord name)
    (htarget : IsWord fk.target) (hnames : ∀ name ∈ fk.targetColumns, IsWord name) :
    IsContent fk.line.toList := by
  have hcolumnsPart : IsLinePart ("foreign key " ++ namesText fk.columns) :=
    IsLinePart.append (by decide) (isLinePart_namesText hcolumns)
  have htargetPart : IsLinePart fk.targetText :=
    ((IsLinePart.append (by decide) htarget.isLinePart).append (by decide)).append
      (isLinePart_namesText hnames)
  exact isContent_append hcolumnsPart htargetPart (by simp) (by unfold targetText; simp)
    (free_toList_append (by decide) (by decide))
    (free_reverse_append toList_namesText_ne_nil free_reverse_namesText)

end

/-! ### Written lines are read -/

section

variable {names : List String}

theorem gap_space : Gap " ".toList :=
  ⟨by decide, List.all_eq_true.1 (by decide)⟩

/-- The text of a list of names is one of the grammar. -/
theorem names_namesText (hne : names ≠ []) (h : ∀ name ∈ names, IsWord name) :
    Names (namesText names).toList names := by
  have hmore (name : String) (names : List String) (h : ∀ n ∈ names, IsWord n) :
      ∃ cs, MoreNames cs names ∧
        (String.intercalate ", " (name :: names)).toList = name.toList ++ cs := by
    induction names generalizing name with
    | nil => exact ⟨[], .nil, by simp⟩
    | cons other names ih =>
      obtain ⟨hother, hnames⟩ := List.forall_mem_cons.1 h
      obtain ⟨cs, hcs, heq⟩ := ih other hnames
      have hnil : Spaces [] := by simp [Spaces]
      have hspace : Spaces [' '] := by simp [Spaces, isSpace]
      refine ⟨_, .cons hnil hspace hother hcs, ?_⟩
      rw [String.intercalate_cons_cons, String.toList_append, String.toList_append, heq]
      simp
  cases names with
  | nil => exact absurd rfl hne
  | cons name names =>
    obtain ⟨hname, hnames⟩ := List.forall_mem_cons.1 h
    obtain ⟨cs, hcs, heq⟩ := hmore name names hnames
    have hlist : (namesText (name :: names)).toList =
        '(' :: [] ++ name.toList ++ cs ++ [] ++ [')'] := by
      simp [namesText, heq]
    rw [hlist]
    exact .list (by simp [Spaces]) hname hcs (by simp [Spaces])

theorem keyClause_text {keyword : String} (hkeyword : Keyword keyword keyword.toList)
    (hne : names ≠ []) (h : ∀ name ∈ names, IsWord name) :
    KeyClause keyword (keyword.toList ++ " ".toList ++ "key".toList ++ " ".toList ++
      (namesText names).toList) names :=
  .clause hkeyword gap_space (by simp [Keyword]) gap_space.2 (names_namesText hne h)

theorem bodyLine?_primaryKeyText (hne : names ≠ []) (h : ∀ name ∈ names, IsWord name) :
    bodyLine? (primaryKeyText names).toList = some (.primaryKey names) := by
  have hline : (primaryKeyText names).toList =
      "primary".toList ++ " ".toList ++ "key".toList ++ " ".toList ++ (namesText names).toList := by
    simp [primaryKeyText]
  rw [hline]
  exact bodyLine?_primaryKey (keyClause_text (by simp [Keyword]) hne h)

theorem ForeignKey.bodyLine?_line {fk : ForeignKey}
    (hcolumns : fk.columns ≠ [] ∧ ∀ name ∈ fk.columns, IsWord name)
    (htarget : IsWord fk.target ∧ fk.targetColumns ≠ [] ∧ ∀ name ∈ fk.targetColumns, IsWord name) :
    bodyLine? fk.line.toList = some fk.bodyLine := by
  have hline : fk.line.toList =
      ("foreign".toList ++ " ".toList ++ "key".toList ++ " ".toList ++
        (namesText fk.columns).toList) ++ " ".toList ++
          ("references".toList ++ " ".toList ++ fk.target.toList ++ " ".toList ++
            (namesText fk.targetColumns).toList) := by
    unfold line targetText
    simp
  rw [hline]
  refine bodyLine?_foreignKey (keyClause_text (by simp [Keyword]) hcolumns.1 hcolumns.2)
    gap_space ?_
  exact .columns (by simp [Keyword]) gap_space htarget.1 gap_space.2
    (names_namesText htarget.2.1 htarget.2.2)

/-- The line of a column is read as one, whatever its name. -/
theorem Column.bodyLine?_line {c : Column} (h : IsWord c.name) :
    bodyLine? c.line.toList = some c.bodyLine := by
  obtain ⟨cs, hconstraints, hline⟩ : ∃ cs,
      Constraints cs (if c.nullable then [] else [.notNull]) ∧
        c.line.toList = c.name.toList ++ " ".toList ++ c.type.name.toList ++ cs := by
    cases hnull : c.nullable with
    | true => exact ⟨[], .nil, by simp [line, hnull]⟩
    | false =>
      exact ⟨" ".toList ++ "not_null".toList ++ [],
        .cons gap_space (.notNull (by simp [Keyword])) .nil, by simp [line, hnull]⟩
  rw [hline]
  exact bodyLine?_column h gap_space c.type.isWord_name hconstraints

end

/-! ### Written schemas are read -/

section

variable {s : Schema} {t : Table}

theorem Table.Writable.forall₂_bodyLine (h : t.Writable) :
    List.Forall₂ (fun line b => bodyLine? line = some b) (t.innerLines.map String.toList)
      t.block.body := by
  have hcolumns : List.Forall₂ (fun line b => bodyLine? line = some b)
      ((t.columns.map Column.line).map String.toList) (t.columns.map Column.bodyLine) := by
    simp only [List.forall₂_map_left_iff, List.forall₂_map_right_iff, List.forall₂_same]
    exact fun c hc => Column.bodyLine?_line (h.columns c hc)
  have hprimary : List.Forall₂ (fun line b => bodyLine? line = some b)
      ((t.primaryKey.map primaryKeyText).toList.map String.toList)
      (t.primaryKey.map BodyLine.primaryKey).toList := by
    cases hkey : t.primaryKey with
    | none => exact .nil
    | some key =>
      obtain ⟨hne, hwords⟩ := h.primaryKey key hkey
      exact .cons (bodyLine?_primaryKeyText hne hwords) .nil
  have hforeign : List.Forall₂ (fun line b => bodyLine? line = some b)
      ((t.foreignKeys.map ForeignKey.line).map String.toList)
      (t.foreignKeys.map ForeignKey.bodyLine) := by
    simp only [List.forall₂_map_left_iff, List.forall₂_map_right_iff, List.forall₂_same]
    exact fun fk hfk => ForeignKey.bodyLine?_line (h.sources fk hfk) (h.targets fk hfk)
  simp only [innerLines, block, List.map_append]
  exact List.rel_append (List.rel_append hcolumns hprimary) hforeign

theorem blockLines_read {tables : List Table} (h : ∀ t ∈ tables, t.Writable) :
    BlockLines .read ((tables.flatMap Table.lines).map String.toList) (tables.map Table.block) := by
  induction tables with
  | nil => exact .nil
  | cons t tables ih =>
    obtain ⟨ht, htables⟩ := List.forall_mem_cons.1 h
    have hhead : tableHead? ("table " ++ t.name ++ " \x7b").toList = some t.name := by
      have hline : ("table " ++ t.name ++ " \x7b").toList =
          "table".toList ++ " ".toList ++ t.name.toList ++ " ".toList ++ ['{'] := by
        simp
      rw [hline]
      exact tableHead?_eq_some_iff.2 (.head (by simp [Keyword]) gap_space ht.name gap_space.2)
    have hlines : ((t :: tables).flatMap Table.lines).map String.toList =
        ("table " ++ t.name ++ " \x7b").toList :: t.innerLines.map String.toList ++ ['}'] ::
          (tables.flatMap Table.lines).map String.toList := by
      simp [Table.lines]
    rw [hlines]
    exact .cons hhead ht.forall₂_bodyLine (ih htables)

theorem Schema.Worded.documentLines (h : s.Worded) (hkeyed : s.WellKeyed) :
    DocumentLines .read (s.lines.map String.toList) s.document := by
  have hhead : schemaHead? ("schema " ++ s.name).toList = some s.name := by
    have hline : ("schema " ++ s.name).toList = "schema".toList ++ " ".toList ++ s.name.toList := by
      simp
    rw [hline]
    exact schemaHead?_eq_some_iff.2 (.head (by simp [Keyword]) gap_space h.name)
  exact .document hhead (blockLines_read (h.writable hkeyed))

theorem Table.Writable.isContent (h : t.Writable) : ∀ line ∈ t.lines, IsContent line.toList := by
  intro line hline
  simp only [Table.lines, innerLines, List.cons_append, List.mem_cons, List.mem_append,
    List.mem_map, Option.mem_toList, Option.map_eq_some_iff, List.not_mem_nil, or_false] at hline
  rcases hline with rfl | ((⟨c, hc, rfl⟩ | ⟨key, hkey, rfl⟩) | ⟨fk, hfk, rfl⟩) | rfl
  · exact isContent_tableLine h.name
  · exact Column.isContent_line (h.columns c hc)
  · exact isContent_primaryKeyText (h.primaryKey key hkey).2
  · obtain ⟨htarget, -, hnames⟩ := h.targets fk hfk
    exact ForeignKey.isContent_line (h.sources fk hfk).2 htarget hnames
  · have hbrace : IsLinePart "\x7d" := by decide
    exact ⟨by decide, fun c hc => (hbrace c hc).kept, by decide, by decide⟩

/-- The contents of a written text are the lines that were written. -/
theorem Schema.Worded.contents_text (h : s.Worded) (hkeyed : s.WellKeyed) :
    contents s.text.toList = s.lines.map String.toList := by
  have htext : s.text.toList = (s.lines.map String.toList).flatMap (· ++ ['\n']) := by
    simp [text, String.toList_join, List.flatMap_map]
  rw [htext]
  refine contents_flatMap (List.forall_mem_map.2 (List.forall_mem_cons.2 ⟨?_, fun line hline => ?_⟩))
  · exact isContent_schemaLine h.name
  · obtain ⟨t, ht, hmem⟩ := List.mem_flatMap.1 hline
    exact (h.writable hkeyed t ht).isContent line hmem

/-- References that list their columns are resolved as they are. -/
theorem Schema.WellKeyed.resolve_eq (hkeyed : s.WellKeyed) : s.Resolvable ∧ s.resolved = s := by
  have htarget (t : Table) (ht : t ∈ s.tables) (fk : ForeignKey) (hfk : fk ∈ t.foreignKeys) :
      s.targetColumns? fk = some fk.targetColumns := by
    obtain ⟨target, hvalid⟩ := (hkeyed t ht).foreignKeys fk hfk
    exact if_neg hvalid.targetColumns_ne_nil
  have htable (t : Table) (ht : t ∈ s.tables) : t.resolved s = t := by
    have hforeign : t.foreignKeys.map (ForeignKey.resolved s) = t.foreignKeys := by
      refine (List.map_congr_left fun fk hfk => ?_).trans (List.map_id _)
      rw [ForeignKey.resolved, htarget t ht fk hfk]
      rfl
    rw [Table.resolved, hforeign]
  refine ⟨fun t ht fk hfk => Option.isSome_of_eq_some (htarget t ht fk hfk), ?_⟩
  rw [resolved, (List.map_congr_left htable).trans (List.map_id _)]

/-- A schema with distinct tables and valid keys whose names are words is read back from its
text. -/
theorem Schema.read_text (h : s.Worded) (hdistinct : s.DistinctTables)
    (hvalid : s.validate = .ok ()) : read s.text = .ok s := by
  have hkeyed := validate_eq_ok_iff_wellKeyed.1 hvalid
  obtain ⟨hresolvable, hresolved⟩ := hkeyed.resolve_eq
  have hlines : DocumentLines .read (contents s.text.toList) s.document := by
    rw [h.contents_text hkeyed]
    exact h.documentLines hkeyed
  have hschema := s.schema_document
  refine read_eq_ok_iff.2 ⟨s.document, hlines, hdistinct.accepted_document, ?_, ?_, hkeyed⟩
  · rw [hschema]
    exact hresolvable
  · rw [hschema]
    exact hresolved.symm

end

/-- A schema whose names are words of the text format or have KELVIN SIGN. -/
def Schema.ofKeywords : Schema :=
  { name := "schema"
    tables :=
      [{ name := "table"
         columns :=
           [{ name := "primary", type := .integer, nullable := false },
             { name := "foreign", type := .bigDecimal, nullable := true }]
         primaryKey := some ["primary", "foreign"]
         foreignKeys := [] },
        { name := "references"
          columns := [{ name := "\u212aey", type := .clob, nullable := true }]
          primaryKey := none
          foreignKeys :=
            [{ columns := ["\u212aey"], target := "table", targetColumns := ["foreign"] }] }] }

theorem Schema.read_text_ofKeywords : read ofKeywords.text = .ok ofKeywords := by
  have hname : IsWord ofKeywords.name := by decide
  have htables : ∀ t ∈ ofKeywords.tables, IsWord t.name := by decide
  have hcolumns : ∀ t ∈ ofKeywords.tables, ∀ c ∈ t.columns, IsWord c.name := by decide +kernel
  have hdistinct : ofKeywords.tables.Pairwise fun a b => sameName a.name b.name = false := by
    decide +kernel
  have hvalid : ofKeywords.validate = .ok () := by decide +kernel
  exact read_text ⟨hname, htables, hcolumns⟩ hdistinct hvalid

end Overlay
