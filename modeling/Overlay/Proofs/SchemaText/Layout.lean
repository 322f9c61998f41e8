import Overlay.Proofs.SchemaText.DocumentReading

/-!
# Layout and comments

What a text says is decided by the contents of its lines: by what is left of each line when its
comment and the white space around the rest are cut off, without the lines of which nothing is left.
Texts with the same contents describe the same schema or fail for the same reason. The number of the
faulty line may differ, but not if the lines with contents have the same numbers in both texts.
Ending the lines with `\r\n` in place of `\n` changes nothing (`Schema.read_layout`).
-/

namespace Overlay

open SchemaText Text

/-- The error without the number of the line at which it was found. -/
def Error.withoutLine : Error → Error
  | .text _ fault => .text 0 fault
  | e => e

theorem Error.withoutLine_withoutLine (e : Error) : e.withoutLine.withoutLine = e.withoutLine := by
  cases e <;> rfl

namespace SchemaText

/-! ### Runs without line numbers -/

/-- The open table without the number of the line of its head. -/
def OpenTable.withoutLine (t : OpenTable) : OpenTable :=
  { t with line := 0 }

/-- The draft without the number of the line at which its table was opened. -/
def Draft.withoutLine (d : Draft) : Draft :=
  { d with current := d.current.map OpenTable.withoutLine }

/-- The outcome of a step without line numbers. -/
def stepWithoutLines : Except Error Draft → Except Error Draft
  | .ok d => .ok d.withoutLine
  | .error e => .error e.withoutLine

section

variable {t : OpenTable} {d : Draft} {n : Nat} {line : List Char}

theorem OpenTable.addLine_withoutLine (b : BodyLine) :
    t.withoutLine.addLine b = (t.addLine b).map OpenTable.withoutLine := by
  cases b with
  | primaryKey columns =>
    unfold addLine
    cases h : t.clauseKey <;> simp [withoutLine, h, Except.map]
  | foreignKey columns target targetColumns => rfl
  | column name typeWord constraints =>
    unfold addLine
    cases h : ColumnType.ofWord? typeWord with
    | none => simp [h, Except.map]
    | some type => simp [h, addColumn_eq, withoutLine, Except.map]

theorem OpenTable.close_withoutLine :
    t.withoutLine.close = t.close.mapError Error.withoutLine := by
  obtain ⟨line, name, columns, foreignKeys, inlineKey, clauseKey⟩ := t
  cases inlineKey <;> cases clauseKey <;> rfl

theorem Draft.topLine_withoutLine :
    d.withoutLine.topLine 0 line = stepWithoutLines (d.topLine n line) := by
  have hname : d.withoutLine.name = d.name := rfl
  unfold topLine
  rw [hname]
  cases schemaHead? line with
  | some name => cases d.name <;> rfl
  | none =>
    cases tableHead? line with
    | some table => cases d.name <;> rfl
    | none => rfl

theorem Draft.innerLine_withoutLine :
    d.withoutLine.innerLine t.withoutLine 0 line = stepWithoutLines (d.innerLine t n line) := by
  unfold innerLine
  cases bodyLine? line with
  | none => rfl
  | some b =>
    simp only [OpenTable.addLine_withoutLine]
    cases t.addLine b <;> rfl

theorem Draft.closeTable_withoutLine :
    d.withoutLine.closeTable t.withoutLine 0 = stepWithoutLines (d.closeTable t n) := by
  unfold closeTable
  rw [OpenTable.close_withoutLine]
  cases t.close with
  | error e => rfl
  | ok table =>
    have htables : d.withoutLine.tables = d.tables := rfl
    simp only [Except.mapError, ok_bind, htables]
    split <;> rfl

/-- A step does the same whatever the numbers of the lines are. -/
theorem Draft.step_withoutLine :
    d.withoutLine.step (0, line) = stepWithoutLines (d.step (n, line)) := by
  cases hcurrent : d.current with
  | none =>
    have hcurrent' : d.withoutLine.current = none := by rw [withoutLine, hcurrent, Option.map_none]
    simp only [step, hcurrent, hcurrent']
    exact topLine_withoutLine
  | some t =>
    have hcurrent' : d.withoutLine.current = some t.withoutLine := by
      rw [withoutLine, hcurrent, Option.map_some]
    simp only [step, hcurrent, hcurrent']
    split
    · exact closeTable_withoutLine
    · exact innerLine_withoutLine

theorem Draft.finish_withoutLine :
    d.withoutLine.finish.mapError Error.withoutLine = d.finish.mapError Error.withoutLine := by
  obtain ⟨name, tables, current⟩ := d
  cases current <;> cases name <;> rfl

/-- A run does the same whatever the numbers of the lines are. -/
theorem Draft.run_withoutLine (numbered : List (Nat × List Char)) :
    (d.withoutLine.run (numbered.map fun l => (0, l.2))).mapError Error.withoutLine =
      (d.run numbered).mapError Error.withoutLine := by
  induction numbered generalizing d with
  | nil => exact finish_withoutLine
  | cons l numbered ih =>
    obtain ⟨n, line⟩ := l
    rw [List.map_cons, run_cons, run_cons, step_withoutLine (n := n)]
    cases d.step (n, line) with
    | ok d' => exact ih
    | error e => exact congrArg Except.error e.withoutLine_withoutLine

/-- Two runs over the same lines with other numbers differ in the number of a faulty line only. -/
theorem Draft.mapError_run_congr {numbered numbered' : List (Nat × List Char)}
    (h : numbered.map Prod.snd = numbered'.map Prod.snd) :
    (d.run numbered).mapError Error.withoutLine = (d.run numbered').mapError Error.withoutLine := by
  have hlines : (numbered.map fun l => (0, l.2)) = numbered'.map fun l => (0, l.2) := by
    simpa [List.map_map, Function.comp_def] using congrArg (List.map fun l => (0, l)) h
  rw [← run_withoutLine, hlines, run_withoutLine]

end

/-! ### Reading without line numbers -/

section

variable {text text' : List Char}

theorem declared_eq_run (text : List Char) : declared text = Draft.empty.run (contentLines text) :=
  rfl

theorem mapError_declared_congr (h : contents text = contents text') :
    (declared text).mapError Error.withoutLine = (declared text').mapError Error.withoutLine := by
  rw [declared_eq_run, declared_eq_run]
  apply Draft.mapError_run_congr
  rw [map_snd_contentLines, map_snd_contentLines, h]

/-- The numbers of the lines of which something is left. -/
def contentNumbers (text : List Char) : List Nat :=
  (contentLines text).map Prod.fst

theorem contentLines_congr (h : contents text = contents text')
    (hnumbers : contentNumbers text = contentNumbers text') :
    contentLines text = contentLines text' := by
  have hzip (text : List Char) : contentLines text = (contentNumbers text).zip (contents text) := by
    rw [← map_snd_contentLines]
    exact List.zip_of_prod rfl rfl
  rw [hzip, hzip, h, hnumbers]

end

end SchemaText

/-! ### Line breaks -/

namespace Text

/-- The text with `\r\n` in place of each `\n`. -/
def withReturns (text : List Char) : List Char :=
  text.flatMap fun c => if c = '\n' then ['\r', '\n'] else [c]

section

variable {cs line : List Char} {c : Char}

/-- A character that belongs to no line break stands at the start of the first line. -/
theorem lines_cons (hc : c ≠ '\n') (hreturn : c = '\r' → ∀ rest, cs ≠ '\n' :: rest) :
    lines (c :: cs) =
      match lines cs with
      | [] => [[c]]
      | line :: rest => (c :: line) :: rest := by
  exact lines.eq_4 c cs hc fun rest h => hreturn h rest

theorem withReturns_newline : withReturns ('\n' :: cs) = '\r' :: '\n' :: withReturns cs := rfl

theorem withReturns_cons (h : c ≠ '\n') : withReturns (c :: cs) = c :: withReturns cs := by
  rw [withReturns, List.flatMap_cons, if_neg h]
  rfl

theorem trim_append_of_isBlank {b : List Char} (h : ∀ c ∈ b, isBlank c = true) :
    trim (line ++ b) = trim line := by
  have hb : b.dropWhile isBlank = [] := List.dropWhile_eq_nil_iff.2 h
  have hreverse : b.reverse.dropWhile isBlank = [] :=
    List.dropWhile_eq_nil_iff.2 fun c hc => h c (List.mem_reverse.1 hc)
  unfold trim
  rw [List.dropWhile_append]
  split
  · next hempty => rw [hb, List.isEmpty_iff.1 hempty]
  · rw [List.reverse_append, List.dropWhile_append, hreverse]
    simp

theorem beforeComment_append_return :
    beforeComment (line ++ ['\r']) = beforeComment line ∨
      beforeComment (line ++ ['\r']) = beforeComment line ++ ['\r'] := by
  fun_induction beforeComment line with
  | case1 => exact .inr rfl
  | case2 => exact .inl rfl
  | case3 => exact .inl rfl
  | case4 c cs hnumber hdash ih =>
    have hcons : beforeComment (c :: cs ++ ['\r']) = c :: beforeComment (cs ++ ['\r']) := by
      rw [List.cons_append, beforeComment]
      · exact hnumber
      · rintro rest hc hrest
        cases cs with
        | nil => cases hrest
        | cons d cs => exact hdash cs hc (by rw [(List.cons.inj hrest).1])
    rw [hcons]
    exact ih.imp (congrArg (c :: ·)) (congrArg (c :: ·))

/-- A return at the end of a line is cut off with the comment or with the white space. -/
theorem content_append_return : content (line ++ ['\r']) = content line := by
  have hreturn : ∀ c ∈ ['\r'], isBlank c = true := List.forall_mem_singleton.2 (by decide)
  unfold content
  obtain h | h := @beforeComment_append_return line
  · rw [h]
  · rw [h, trim_append_of_isBlank hreturn]

theorem withReturns_ne_newline_cons : withReturns cs ≠ '\n' :: line := by
  cases cs with
  | nil => exact List.cons_ne_nil _ _ ∘ Eq.symm
  | cons c cs =>
    by_cases hc : c = '\n'
    · rw [hc, withReturns_newline]
      exact fun h => absurd (List.cons.inj h).1 (by decide)
    · rw [withReturns_cons hc]
      exact fun h => hc (List.cons.inj h).1

/-- Each line stays as it is, or gains a return if it ended with `\r\n` before. -/
theorem forall₂_lines_withReturns (cs : List Char) :
    List.Forall₂ (fun line line' => line' = line ∨ line' = line ++ ['\r']) (lines cs)
      (lines (withReturns cs)) := by
  fun_induction lines cs with
  | case1 => exact .nil
  | case2 cs ih => exact .cons (.inl rfl) ih
  | case3 cs ih => exact .cons (.inr rfl) ih
  | case4 c cs hc _ hnil ih =>
    rw [hnil, List.forall₂_nil_left_iff] at ih
    rw [withReturns_cons hc, lines_cons hc fun _ _ => withReturns_ne_newline_cons, ih]
    exact .cons (.inl rfl) .nil
  | case5 c cs hc _ line rest hlines ih =>
    rw [hlines, List.forall₂_cons_left_iff] at ih
    obtain ⟨line', rest', hline, hrest, hlines'⟩ := ih
    rw [withReturns_cons hc, lines_cons hc fun _ _ => withReturns_ne_newline_cons, hlines']
    exact .cons (hline.imp (congrArg (c :: ·)) (congrArg (c :: ·))) hrest

theorem map_content_lines_withReturns (text : List Char) :
    (lines (withReturns text)).map content = (lines text).map content := by
  have hlines := forall₂_lines_withReturns text
  have hcontent : List.Forall₂ (fun line line' => content line' = content line) (lines text)
      (lines (withReturns text)) := by
    apply hlines.imp
    rintro line line' (rfl | rfl)
    · rfl
    · exact content_append_return
  rw [← List.forall₂_eq_eq_eq, List.forall₂_map_left_iff, List.forall₂_map_right_iff]
  exact hcontent.flip

theorem contentLines_withReturns (text : List Char) :
    contentLines (withReturns text) = contentLines text := by
  rw [contentLines, map_content_lines_withReturns, contentLines]

end

end Text

/-! ### Texts -/

namespace Schema

theorem read_eq_bind (text : String) :
    read text = declared text.toList >>= fun d => d.resolve >>= fun s =>
      s.validate >>= fun _ => .ok s :=
  rfl

theorem read_congr {text text' : String}
    (h : contentLines text.toList = contentLines text'.toList) : read text = read text' := by
  rw [read_eq_bind, declared_eq_run, h, ← declared_eq_run, ← read_eq_bind]

/-- Texts with the same contents describe the same schema, or fail in the same way up to the number
of the faulty line; the number is the same, too, if the lines with contents have the same numbers.
The kind of line breaks does not matter. -/
theorem read_layout (text : String) :
    (∀ text' : String, contents text.toList = contents text'.toList →
      (read text).mapError Error.withoutLine = (read text').mapError Error.withoutLine ∧
        (contentNumbers text.toList = contentNumbers text'.toList → read text = read text')) ∧
      read (String.ofList (withReturns text.toList)) = read text := by
  refine ⟨fun text' h => ⟨?_, fun hnumbers => read_congr (contentLines_congr h hnumbers)⟩, ?_⟩
  · rw [read_eq_bind, read_eq_bind]
    exact mapError_bind_congr _ (mapError_declared_congr h)
  · apply read_congr
    rw [String.toList_ofList, contentLines_withReturns]

theorem read_layout_faultyLine :
    ∃ text text' : String, contents text.toList = contents text'.toList ∧
      read text = .error (.text 2 (.unknownStatement "x")) ∧
      read text' = .error (.text 4 (.unknownStatement "x")) ∧
      (read text).mapError Error.withoutLine = (read text').mapError Error.withoutLine := by
  have h : contents "schema s\nx".toList =
      contents " schema s # the name\r\n\n--\n\u00a0x".toList := by
    decide +kernel
  exact ⟨_, _, h, eq_error_of_failsWith (by decide +kernel),
    eq_error_of_failsWith (by decide +kernel), ((read_layout _).1 _ h).1⟩

end Schema

end Overlay
