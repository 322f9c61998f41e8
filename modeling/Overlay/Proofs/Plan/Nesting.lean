import Overlay.Proofs.Plan.Brackets
import Overlay.Proofs.Plan.Writer

/-!
# The text of a trigger

The text of a trigger is one block: its lines are balanced, the blanks in front of a line tell the
number of blocks that are open, and every `ELSE` stands behind the block of an `IF`
(`WellNested`). This holds of all bodies whose texts have no line break, by induction on the body;
what is preserved is `Placed`, which says of a line what the lines before it have to be like.
-/

namespace Overlay

open Text

namespace TriggerText

/-! ### Well-nested texts -/

/-- The text has no line break. -/
def Unbroken (text : String) : Prop :=
  '\n' ∉ text.toList

instance (text : String) : Decidable (Unbroken text) :=
  inferInstanceAs (Decidable ('\n' ∉ text.toList))

/-- The lines of a text. -/
def lines (text : String) : List (List Char) :=
  text.toList.splitOn '\n'

/-- The line opens the block of a whole trigger. -/
def OpensAtomic (line : List Char) : Prop :=
  unindented line = "BEGIN ATOMIC".toList

/-- The line is the header of a block that runs if a condition holds. -/
def IsIf (line : List Char) : Prop :=
  "IF (".toList <+: unindented line

/-- The line is the header of a block that runs if a condition does not hold. -/
def IsElse (line : List Char) : Prop :=
  unindented line = "ELSE".toList

/-- The line has four blanks for each of the open blocks in front of it. If it closes a block, this
block does not count. -/
def IndentedAt (depth : Int) (line : List Char) : Prop :=
  (indentation line : Int) = 4 * if Closes line then depth - 1 else depth

/-- The last of the lines are a block that runs if a condition holds, `n` blanks deep. -/
def EndsWithIf (n : Nat) (ls : List (List Char)) : Prop :=
  ∃ front header start inner stop, ls = front ++ header :: start :: inner ++ [stop] ∧
    IsIf header ∧ Opens start ∧ Balanced inner ∧ Closes stop ∧
    indentation header = n ∧ indentation start = n ∧ indentation stop = n

/-- The last of the characters is not white space. -/
def Trimmed (cs : List Char) : Prop :=
  (cs.getLast?.all fun c => !isBlank c) = true

/-- The text is one block for each row. -/
structure WellNested (text : String) : Prop where
  /-- The outermost block goes from the second line to the last, and is the only one of its kind. -/
  frame : ∃ inner, Balanced inner ∧ (∀ line ∈ inner, ¬OpensAtomic line) ∧
    lines text = "FOR EACH ROW".toList :: "BEGIN ATOMIC".toList :: inner ++ ["END".toList]
  /-- Every block that is opened is closed later, as deep as it was opened. -/
  stops : ∀ before line after, lines text = before ++ line :: after → Opens line →
    ∃ inner stop rest, after = inner ++ stop :: rest ∧ Balanced inner ∧ Closes stop ∧
      indentation stop = indentation line
  /-- Every block that is closed was opened before, as deep as it is closed. -/
  starts : ∀ before line after, lines text = before ++ line :: after → Closes line →
    ∃ front start inner, before = front ++ start :: inner ∧ Balanced inner ∧ Opens start ∧
      indentation start = indentation line
  indented : ∀ before line after, lines text = before ++ line :: after →
    IndentedAt (depth before) line
  otherwise : ∀ before line after, lines text = before ++ line :: after → IsElse line →
    EndsWithIf (indentation line) before
  trimmed : ∀ line ∈ lines text, Trimmed line
  finished : Trimmed text.toList

instance (cs : List Char) : Decidable (Trimmed cs) :=
  inferInstanceAs (Decidable (_ = true))

theorem trimmed_of_suffix {c : Char} {cs : List Char} (h : [c] <:+ cs) (hc : isBlank c = false) :
    Trimmed cs := by
  obtain ⟨init, rfl⟩ := h
  rw [Trimmed, List.getLast?_concat, Option.all_some, hc]
  rfl

/-- A bracket and its partner are as deep as each other if the blanks in front of them tell the
number of open blocks. -/
theorem indentation_eq_of_partners {start stop : List Char} {before inner : List (List Char)}
    (hstart : IndentedAt (depth before) start) (hopens : Opens start) (hinner : Balanced inner)
    (hstop : IndentedAt (depth (before ++ start :: inner)) stop) (hcloses : Closes stop) :
    indentation stop = indentation start := by
  rw [IndentedAt, if_neg hopens.not_closes] at hstart
  rw [IndentedAt, if_pos hcloses, depth_append, depth_cons, hopens.weight_eq, hinner.total] at hstop
  omega

/-! ### What holds along lines -/

/-- Every line is as `p` says of it and the lines before it, which come behind the lines
`before`. -/
def Along (p : List (List Char) → List Char → Prop) (before ls : List (List Char)) : Prop :=
  ∀ front line back, ls = front ++ line :: back → p (before ++ front) line

section

variable {p : List (List Char) → List Char → Prop} {line : List Char}
  {before ls ls' : List (List Char)}

theorem along_nil : Along p before [] := by
  intro front line back h
  cases front <;> cases h

theorem along_cons_iff :
    Along p before (line :: ls) ↔ p before line ∧ Along p (before ++ [line]) ls := by
  constructor
  · intro h
    refine ⟨by simpa using h [] line ls rfl, fun front line' back hsplit => ?_⟩
    rw [List.append_assoc]
    exact h (line :: front) line' back (congrArg (line :: ·) hsplit)
  · rintro ⟨hline, hrest⟩ front line' back hsplit
    obtain ⟨rfl, hback⟩ | ⟨front', rfl, hback⟩ := List.cons_eq_append_iff.1 hsplit
    · obtain ⟨rfl, -⟩ := List.cons.inj hback
      rwa [List.append_nil]
    · have h := hrest front' line' back hback
      rwa [List.append_assoc] at h

theorem along_append_iff :
    Along p before (ls ++ ls') ↔ Along p before ls ∧ Along p (before ++ ls) ls' := by
  induction ls generalizing before with
  | nil => simp [along_nil]
  | cons line ls ih =>
    rw [List.cons_append, along_cons_iff, along_cons_iff, ih, and_assoc, List.append_assoc]
    rfl

end

/-- A line stands where it may: as many blanks deep as blocks are open, and behind the block of a
condition if it is the header for the other case. -/
structure Placed (before : List (List Char)) (line : List Char) : Prop where
  indented : IndentedAt (depth before) line
  otherwise : IsElse line → EndsWithIf (indentation line) before

/-! ### Single lines -/

/-- A text that is neither a bracket nor the header for the other case: it does not start with a
blank and ends with `;` or `)`. -/
structure Plain (text : String) : Prop where
  first : ∃ c, c ≠ ' ' ∧ [c] <+: text.toList
  last : ∃ c, (c = ';' ∨ c = ')') ∧ [c] <:+ text.toList

section

variable {text : String} {d : Nat} {before : List (List Char)}

theorem toList_indented (d : Nat) (text : String) :
    (indented d text).toList = List.replicate (4 * d) ' ' ++ text.toList := by
  rw [indented, String.toList_append, String.toList_ofList]

theorem Unbroken.indented {text : String} (h : Unbroken text) (d : Nat) :
    Unbroken (indented d text) := by
  rw [Unbroken, toList_indented, List.mem_append, not_or]
  exact ⟨fun hmem => absurd (List.eq_of_mem_replicate hmem) (by decide), h⟩

theorem unindented_toList_indented (d : Nat) (text : String) :
    unindented (indented d text).toList = unindented text.toList := by
  rw [unindented, toList_indented, List.dropWhile_append_of_pos (by simp)]
  rfl

theorem unindented_indented (h : ∃ c, c ≠ ' ' ∧ [c] <+: text.toList) (d : Nat) :
    unindented (indented d text).toList = text.toList := by
  obtain ⟨c, hc, rest, hrest⟩ := h
  rw [unindented_toList_indented, unindented, ← hrest]
  simp [hc]

theorem indentation_indented (h : ∃ c, c ≠ ' ' ∧ [c] <+: text.toList) (d : Nat) :
    indentation (indented d text).toList = 4 * d := by
  obtain ⟨c, hc, rest, hrest⟩ := h
  rw [indentation, toList_indented, ← hrest, List.takeWhile_append_of_pos (by simp)]
  simp [hc]

theorem Plain.not_end (h : Plain text) (d : Nat) {word : List Char}
    (hword : word.getLast? ≠ some ';' ∧ word.getLast? ≠ some ')') :
    unindented (indented d text).toList ≠ word := by
  obtain ⟨c, hc, init, hinit⟩ := h.last
  rw [unindented_indented h.first, ← hinit]
  rintro rfl
  rw [List.getLast?_concat] at hword
  obtain rfl | rfl := hc
  · exact hword.1 rfl
  · exact hword.2 rfl

theorem Plain.not_opens (h : Plain text) (d : Nat) : ¬Opens (indented d text).toList := by
  rintro (hopens | hopens)
  · exact h.not_end d (by decide) hopens
  · exact h.not_end d (by decide) hopens

theorem Plain.not_closes (h : Plain text) (d : Nat) : ¬Closes (indented d text).toList :=
  h.not_end d (by decide)

theorem Plain.not_isElse (h : Plain text) (d : Nat) : ¬IsElse (indented d text).toList :=
  h.not_end d (by decide)

theorem Plain.not_opensAtomic (h : Plain text) : ¬OpensAtomic text.toList := by
  rw [OpensAtomic, ← unindented_toList_indented 0]
  exact h.not_end 0 (by decide)

theorem Plain.weight_eq (h : Plain text) (d : Nat) : weight (indented d text).toList = 0 :=
  weight_eq_zero (h.not_opens d) (h.not_closes d)

theorem Plain.placed (h : Plain text) (hdepth : depth before = d) :
    Placed before (indented d text).toList where
  indented := by
    rw [IndentedAt, indentation_indented h.first, if_neg (h.not_closes d), hdepth]
    push_cast
    rfl
  otherwise helse := absurd helse (h.not_isElse d)

theorem first_begin : ∃ c, c ≠ ' ' ∧ [c] <+: "BEGIN".toList :=
  ⟨'B', by decide, by decide⟩

theorem first_end : ∃ c, c ≠ ' ' ∧ [c] <+: "END".toList :=
  ⟨'E', by decide, by decide⟩

theorem first_else : ∃ c, c ≠ ' ' ∧ [c] <+: "ELSE".toList :=
  ⟨'E', by decide, by decide⟩

theorem opens_begin (d : Nat) : Opens (indented d "BEGIN").toList :=
  .inl (unindented_indented first_begin d)

theorem closes_end (d : Nat) : Closes (indented d "END").toList :=
  unindented_indented first_end d

theorem not_opens_else (d : Nat) : ¬Opens (indented d "ELSE").toList := by
  rw [Opens, unindented_indented first_else]
  decide

theorem not_closes_else (d : Nat) : ¬Closes (indented d "ELSE").toList := by
  rw [Closes, unindented_indented first_else]
  decide

theorem placed_begin (hdepth : depth before = d) : Placed before (indented d "BEGIN").toList where
  indented := by
    rw [IndentedAt, indentation_indented first_begin, if_neg (opens_begin d).not_closes, hdepth]
    push_cast
    rfl
  otherwise helse := by
    rw [IsElse, unindented_indented first_begin] at helse
    exact absurd helse (by decide)

theorem placed_end (hdepth : depth before = d + 1) :
    Placed before (indented d "END").toList where
  indented := by
    rw [IndentedAt, indentation_indented first_end, if_pos (closes_end d), hdepth]
    push_cast
    omega
  otherwise helse := by
    rw [IsElse, unindented_indented first_end] at helse
    exact absurd helse (by decide)

theorem placed_else (hdepth : depth before = d) (h : EndsWithIf (4 * d) before) :
    Placed before (indented d "ELSE").toList where
  indented := by
    rw [IndentedAt, indentation_indented first_else, if_neg (not_closes_else d), hdepth]
    push_cast
    rfl
  otherwise _ := by
    rwa [indentation_indented first_else]

end

/-! ### Blocks -/

section

variable {d : Nat} {header : String} {inner : List String} {before : List (List Char)}

theorem map_block (d : Nat) (header : String) (inner : List String) :
    (block d header inner).map String.toList =
      (indented d header).toList :: ((indented d "BEGIN").toList :: inner.map String.toList ++
        [(indented d "END").toList]) := by
  simp [block]

theorem balanced_block (hheader : weight (indented d header).toList = 0)
    (hinner : Balanced (inner.map String.toList)) :
    Balanced ((block d header inner).map String.toList) := by
  rw [map_block]
  exact (balanced_singleton hheader).append (.wrap (opens_begin d) hinner (closes_end d))

theorem along_block (hdepth : depth before = d) (hplaced : Placed before (indented d header).toList)
    (hheader : weight (indented d header).toList = 0)
    (hbalanced : Balanced (inner.map String.toList))
    (hinner : ∀ before', depth before' = d + 1 → Along Placed before' (inner.map String.toList)) :
    Along Placed before ((block d header inner).map String.toList) := by
  have hbegin : depth (before ++ [(indented d header).toList]) = d := by
    simp [hdepth, hheader]
  have hopen : depth (before ++ [(indented d header).toList] ++ [(indented d "BEGIN").toList]) =
      d + 1 := by
    rw [depth_append, hbegin, depth_cons, (opens_begin d).weight_eq, depth_nil, Int.add_zero]
  rw [map_block, along_cons_iff, List.cons_append, along_cons_iff, along_append_iff, along_cons_iff]
  refine ⟨hplaced, placed_begin hbegin, hinner _ hopen, placed_end ?_, along_nil⟩
  rw [depth_append, hopen, hbalanced.total, Int.add_zero]

/-- A block with the header of a condition is one that `ELSE` can stand behind. -/
theorem endsWithIf_block (hheader : IsIf (indented d header).toList)
    (hfirst : ∃ c, c ≠ ' ' ∧ [c] <+: header.toList)
    (hbalanced : Balanced (inner.map String.toList)) :
    EndsWithIf (4 * d) (before ++ (block d header inner).map String.toList) := by
  refine ⟨before, _, _, _, _, ?_, hheader, opens_begin d, hbalanced, closes_end d,
    indentation_indented hfirst d, indentation_indented first_begin d,
    indentation_indented first_end d⟩
  rw [map_block]
  simp

end

end TriggerText

/-! ### Statements and conditions -/

open TriggerText

section

variable {a b : String} {cs : List Char}

theorem prefix_toList_append (h : cs <+: a.toList) (b : String) : cs <+: (a ++ b).toList := by
  rw [String.toList_append]
  exact h.trans (List.prefix_append ..)

theorem suffix_toList_append (a : String) (h : cs <:+ b.toList) : cs <:+ (a ++ b).toList := by
  rw [String.toList_append]
  exact h.trans (List.suffix_append ..)

end

theorem Statement.text_findKey (relation : Relation) (key : List String) (image : RowImage) :
    (findKey relation key image).text = "DECLARE boolean VARIABLES.X = (SELECT true FROM " ++
      relation.text ++ " WHERE " ++ equations (key.map fun k => (k, qualified image.text k)) ++
        ");" := rfl

theorem Statement.text_refuse (message : String) :
    (refuse message).text = "RAISE SQLEXCEPTION " ++ quoted message ++ ";" := rfl

theorem RowWrite.plain_text (w : RowWrite) : Plain w.text where
  first := by
    simp only [text, String.append_assoc]
    cases w.mode with
    | insert => exact ⟨'I', by decide, prefix_toList_append (by decide) _⟩
    | upsert => exact ⟨'U', by decide, prefix_toList_append (by decide) _⟩
  last := by
    rw [text]
    exact ⟨';', .inl rfl, suffix_toList_append _ (by decide)⟩

theorem Statement.plain_text (s : Statement) : Plain s.text := by
  cases s with
  | findKey relation key image =>
    constructor
    · simp only [text_findKey, String.append_assoc]
      exact ⟨'D', by decide, prefix_toList_append (by decide) _⟩
    · rw [text_findKey]
      exact ⟨';', .inl rfl, suffix_toList_append _ (by decide)⟩
  | write row => exact row.plain_text
  | refuse message =>
    constructor
    · rw [text_refuse, String.append_assoc]
      exact ⟨'R', by decide, prefix_toList_append (by decide) _⟩
    · rw [text_refuse]
      exact ⟨';', .inl rfl, suffix_toList_append _ (by decide)⟩

theorem Condition.plain_header (c : Condition) : Plain c.header where
  first := by
    rw [header, String.append_assoc]
    exact ⟨'I', by decide, prefix_toList_append (by decide) _⟩
  last := by
    rw [header]
    exact ⟨')', .inr rfl, suffix_toList_append _ (by decide)⟩

theorem Condition.isIf_header (c : Condition) (d : Nat) : IsIf (indented d c.header).toList := by
  rw [IsIf, unindented_indented c.plain_header.first, header, String.append_assoc]
  exact prefix_toList_append (List.prefix_refl _) _

/-! ### Bodies -/

namespace Body

/-- All blocks of a body are opened and closed by its own lines. -/
theorem balanced_lines (body : Body) (d : Nat) :
    Balanced ((body.lines d).map String.toList) := by
  induction body generalizing d with
  | done => exact balanced_nil
  | run statement rest ih =>
    exact (balanced_singleton (statement.plain_text.weight_eq d)).append (ih d)
  | guard condition yes rest ihyes ihrest =>
    rw [lines, List.map_append]
    exact (balanced_block (condition.plain_header.weight_eq d) (ihyes (d + 1))).append (ihrest d)
  | branch condition yes no rest ihyes ihno ihrest =>
    rw [lines, List.map_append, List.map_append]
    have helse := weight_eq_zero (not_opens_else d) (not_closes_else d)
    exact ((balanced_block (condition.plain_header.weight_eq d) (ihyes (d + 1))).append
      (balanced_block helse (ihno (d + 1)))).append (ihrest d)

/-- Every line of a body stands where it may if the lines before it leave as many blocks open as the
body is deep. -/
theorem along_lines (body : Body) {d : Nat} {before : List (List Char)} (hdepth : depth before = d) :
    Along Placed before ((body.lines d).map String.toList) := by
  induction body generalizing d before with
  | done => exact along_nil
  | run statement rest ih =>
    rw [lines, List.map_cons, along_cons_iff]
    refine ⟨statement.plain_text.placed hdepth, ih ?_⟩
    simp [hdepth, statement.plain_text.weight_eq d]
  | guard condition yes rest ihyes ihrest =>
    rw [lines, List.map_append, along_append_iff]
    have hbalanced := balanced_block (condition.plain_header.weight_eq d)
      (yes.balanced_lines (d + 1))
    refine ⟨along_block hdepth (condition.plain_header.placed hdepth)
      (condition.plain_header.weight_eq d) (yes.balanced_lines (d + 1)) fun before' h =>
        ihyes (by exact_mod_cast h), ihrest ?_⟩
    rw [depth_append, hbalanced.total, hdepth, Int.add_zero]
  | branch condition yes no rest ihyes ihno ihrest =>
    have hplain := condition.plain_header
    have hweight := weight_eq_zero (not_opens_else d) (not_closes_else d)
    have hyes := balanced_block (hplain.weight_eq d) (yes.balanced_lines (d + 1))
    have hno := balanced_block hweight (no.balanced_lines (d + 1))
    have hmiddle : depth (before ++ (block d condition.header (yes.lines (d + 1))).map
        String.toList) = d := by
      rw [depth_append, hyes.total, hdepth, Int.add_zero]
    -- The block of the condition stands directly in front of `ELSE`.
    have helse := placed_else hmiddle (endsWithIf_block (condition.isIf_header d) hplain.first
      (yes.balanced_lines (d + 1)))
    rw [lines, List.map_append, List.map_append, along_append_iff, along_append_iff]
    refine ⟨⟨?_, ?_⟩, ihrest ?_⟩
    · exact along_block hdepth (hplain.placed hdepth) (hplain.weight_eq d)
        (yes.balanced_lines (d + 1)) fun before' h => ihyes (by exact_mod_cast h)
    · exact along_block hmiddle helse hweight (no.balanced_lines (d + 1))
        fun before' h => ihno (by exact_mod_cast h)
    · rw [← List.append_assoc, depth_append, hno.total, hmiddle, Int.add_zero]

/-- The texts of the statements and the headers of the conditions. -/
def texts : Body → List String
  | done => []
  | run statement rest => statement.text :: rest.texts
  | guard condition yes rest => condition.header :: yes.texts ++ rest.texts
  | branch condition yes no rest => condition.header :: yes.texts ++ no.texts ++ rest.texts

/-- What holds of the texts holds of the lines if it holds of the brackets too and does not depend
on the blanks in front of a line. -/
theorem forall_mem_lines {p : String → Prop} (body : Body) (d : Nat)
    (hindented : ∀ d text, p text → p (indented d text))
    (hbrackets : p "BEGIN" ∧ p "END" ∧ p "ELSE") (htexts : ∀ text ∈ body.texts, p text) :
    ∀ line ∈ body.lines d, p line := by
  obtain ⟨hbegin, hend, helse⟩ := hbrackets
  have hblock (d : Nat) (header : String) (inner : List String) (hheader : p header)
      (hinner : ∀ line ∈ inner, p line) : ∀ line ∈ block d header inner, p line := by
    rw [block, List.cons_append, List.cons_append, List.forall_mem_cons, List.forall_mem_cons,
      List.forall_mem_append, List.forall_mem_singleton]
    exact ⟨hindented d _ hheader, hindented d _ hbegin, hinner, hindented d _ hend⟩
  induction body generalizing d with
  | done => exact List.forall_mem_nil _
  | run statement rest ih =>
    obtain ⟨hstatement, hrest⟩ := List.forall_mem_cons.1 htexts
    exact List.forall_mem_cons.2 ⟨hindented d _ hstatement, ih d hrest⟩
  | guard condition yes rest ihyes ihrest =>
    obtain ⟨hheader, htexts⟩ := List.forall_mem_cons.1 htexts
    obtain ⟨hyes, hrest⟩ := List.forall_mem_append.1 htexts
    exact List.forall_mem_append.2
      ⟨hblock d _ _ hheader (ihyes (d + 1) hyes), ihrest d hrest⟩
  | branch condition yes no rest ihyes ihno ihrest =>
    obtain ⟨hcondition, hrest⟩ := List.forall_mem_append.1 htexts
    obtain ⟨hheader, htexts⟩ := List.forall_mem_cons.1 hcondition
    obtain ⟨hyes, hno⟩ := List.forall_mem_append.1 htexts
    exact List.forall_mem_append.2 ⟨List.forall_mem_append.2
      ⟨hblock d _ _ hheader (ihyes (d + 1) hyes), hblock d _ _ helse (ihno (d + 1) hno)⟩,
        ihrest d hrest⟩

theorem plain_of_mem_texts (body : Body) : ∀ text ∈ body.texts, Plain text := by
  induction body with
  | done => exact List.forall_mem_nil _
  | run statement rest ih => exact List.forall_mem_cons.2 ⟨statement.plain_text, ih⟩
  | guard condition yes rest ihyes ihrest =>
    exact List.forall_mem_cons.2
      ⟨condition.plain_header, List.forall_mem_append.2 ⟨ihyes, ihrest⟩⟩
  | branch condition yes no rest ihyes ihno ihrest =>
    exact List.forall_mem_append.2 ⟨List.forall_mem_cons.2
      ⟨condition.plain_header, List.forall_mem_append.2 ⟨ihyes, ihno⟩⟩, ihrest⟩

/-- No line of a body opens the block of a whole trigger. -/
theorem not_opensAtomic_of_mem_lines (body : Body) (d : Nat) :
    ∀ line ∈ body.lines d, ¬OpensAtomic line.toList := by
  refine body.forall_mem_lines (p := fun text => ¬OpensAtomic text.toList) d
    (fun d text htext => ?_) ⟨?_, ?_, ?_⟩
    fun text htext => (body.plain_of_mem_texts text htext).not_opensAtomic
  · rwa [OpensAtomic, unindented_toList_indented]
  all_goals
    unfold OpensAtomic
    decide

/-- No line of a body has white space at its end. -/
theorem trimmed_lines (body : Body) (d : Nat) : ∀ line ∈ body.lines d, Trimmed line.toList := by
  intro line hline
  have hlast := body.forall_mem_lines (p := fun text => ∃ c, isBlank c = false ∧ [c] <:+ text.toList) d
    (fun d text ⟨c, hc, hend⟩ => ⟨c, hc, suffix_toList_append _ hend⟩)
    ⟨⟨'N', by decide, by decide⟩, ⟨'D', by decide, by decide⟩, ⟨'E', by decide, by decide⟩⟩
    (fun text htext => ?_) line hline
  · obtain ⟨c, hc, hend⟩ := hlast
    exact trimmed_of_suffix hend hc
  · obtain ⟨c, hc, hend⟩ := (body.plain_of_mem_texts text htext).last
    refine ⟨c, ?_, hend⟩
    obtain rfl | rfl := hc <;> decide

/-! ### Triggers -/

/-- The lines of a trigger around the lines of its body. -/
theorem map_triggerLines (body : Body) :
    body.triggerLines.map String.toList = "FOR EACH ROW".toList ::
      ("BEGIN ATOMIC".toList :: (body.lines 1).map String.toList ++ ["END".toList]) := by
  simp [triggerLines]

theorem balanced_triggerLines (body : Body) :
    Balanced (body.triggerLines.map String.toList) := by
  rw [map_triggerLines]
  exact (balanced_singleton (by decide)).append
    (.wrap (by decide) (body.balanced_lines 1) (by decide))

theorem along_triggerLines (body : Body) :
    Along Placed [] (body.triggerLines.map String.toList) := by
  have hhead : Placed [] "FOR EACH ROW".toList :=
    ⟨by unfold IndentedAt; decide, fun helse => absurd helse (by unfold IsElse; decide)⟩
  have hatomic : Placed ["FOR EACH ROW".toList] "BEGIN ATOMIC".toList :=
    ⟨by unfold IndentedAt; decide, fun helse => absurd helse (by unfold IsElse; decide)⟩
  rw [map_triggerLines, along_cons_iff, List.cons_append, along_cons_iff, along_append_iff,
    along_cons_iff]
  refine ⟨hhead, hatomic, body.along_lines rfl, placed_end (d := 0) ?_, along_nil⟩
  rw [depth_append, (body.balanced_lines 1).total]
  rfl

/-- If no text of the body has a line break, its trigger is read in the lines that were put
together. -/
theorem lines_trigger (body : Body) (h : ∀ text ∈ body.texts, Unbroken text) :
    TriggerText.lines body.trigger = body.triggerLines.map String.toList := by
  have hlines := body.forall_mem_lines (p := Unbroken) 1 (fun d _ htext => htext.indented d)
    (by decide) h
  rw [TriggerText.lines, trigger, String.toList_intercalate]
  refine List.splitOn_intercalate '\n' ?_ ?_
  · rw [map_triggerLines, List.forall_mem_cons, List.forall_mem_append, List.forall_mem_cons,
      List.forall_mem_singleton]
    exact ⟨by decide, ⟨by decide, List.forall_mem_map.2 hlines⟩, by decide⟩
  · simp [triggerLines]

/-- The text of a trigger is one block for each row if no text of its body has a line break. -/
theorem wellNested_trigger (body : Body) (h : ∀ text ∈ body.texts, Unbroken text) :
    WellNested body.trigger := by
  have hlines := body.lines_trigger h
  have hbalanced := body.balanced_triggerLines
  have halong := body.along_triggerLines
  rw [← hlines] at hbalanced halong
  refine
    { frame := ⟨_, body.balanced_lines 1, List.forall_mem_map.2
        (body.not_opensAtomic_of_mem_lines 1), hlines.trans body.map_triggerLines⟩
      stops := fun before line after hsplit hopens => ?_
      starts := fun before line after hsplit hcloses => ?_
      indented := fun before line after hsplit => (halong before line after hsplit).indented
      otherwise := fun before line after hsplit => (halong before line after hsplit).otherwise
      trimmed := ?_
      finished := ?_ }
  · rw [hsplit] at hbalanced
    obtain ⟨inner, stop, rest, rfl, hinner, hstop⟩ := hbalanced.exists_stop hopens
    refine ⟨inner, stop, rest, rfl, hinner, hstop, ?_⟩
    have hline := halong before line _ hsplit
    have hstop' := halong (before ++ line :: inner) stop rest (by simp [hsplit])
    exact indentation_eq_of_partners hline.indented hopens hinner hstop'.indented hstop
  · rw [hsplit] at hbalanced
    obtain ⟨front, start, inner, rfl, hstart, hinner⟩ := hbalanced.exists_start hcloses
    refine ⟨front, start, inner, rfl, hinner, hstart, ?_⟩
    have hline := halong _ line after hsplit
    have hstart' := halong front start (inner ++ line :: after) (by simp [hsplit])
    exact (indentation_eq_of_partners hstart'.indented hstart hinner hline.indented hcloses).symm
  · rw [hlines, map_triggerLines, List.forall_mem_cons, List.forall_mem_append,
      List.forall_mem_cons, List.forall_mem_singleton]
    exact ⟨by decide, ⟨by decide, List.forall_mem_map.2 (body.trimmed_lines 1)⟩, by decide⟩
  · -- The last line has no line break behind it.
    rw [trigger, triggerLines, Writer.intercalate_append_singleton]
    exact trimmed_of_suffix (suffix_toList_append _ (by decide : ['D'] <:+ "END".toList)) (by decide)

end Body

end Overlay
