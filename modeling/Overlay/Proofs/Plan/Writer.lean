import Mathlib.Data.List.DropRight
import Overlay.Proofs.Layer.TableOrder

/-!
# Writing triggers

The text of a trigger can also be written from its first line to its last, by a writer that keeps
nothing but the text so far and the depth of the blocks that are open. Closing a block lowers the
depth and fails if no block is open (`Writer.closeBlock`). The three triggers of a redirection are
written without such a failure, and the texts are the same (`Redirection.writeInsert_eq_some`,
`Redirection.writeUpdate_eq_some`, `Redirection.writeDelete_eq_some`).
-/

namespace Overlay

open Text

/-- The text that has been written and the number of blocks that are open. -/
structure Writer where
  text : String
  depth : Nat
  deriving DecidableEq, Repr

namespace Writer

/-- Writes a line. -/
def line (w : Writer) (text : String) : Writer :=
  { w with text := w.text ++ indented w.depth text ++ "\n" }

/-- The writer inside the block of a trigger that runs for each row. -/
def start : Writer :=
  { ((Writer.mk "" 0).line "FOR EACH ROW").line "BEGIN ATOMIC" with depth := 1 }

/-- Writes a header and opens a block. -/
def openBlock (w : Writer) (header : String) : Writer :=
  let w := (w.line header).line "BEGIN"
  { w with depth := w.depth + 1 }

/-- Writes the end of the innermost block. -/
def endBlock (w : Writer) : Writer :=
  line { w with depth := w.depth - 1 } "END"

/-- Closes the innermost block if one is open. -/
def closeBlock (w : Writer) : Option Writer :=
  if w.depth = 0 then none else some w.endBlock

/-- Closes the innermost block and opens the one for the other case. -/
def otherwise (w : Writer) : Option Writer := do
  let w ← w.closeBlock
  some (w.openBlock "ELSE")

/-- Writes a block that refuses the operation if the condition holds. -/
def refuseIf (w : Writer) (condition : Condition) (message : String) : Option Writer :=
  ((w.openBlock condition.header).line (Statement.refuse message).text).closeBlock

/-- Writes a refusal for each dependent table. -/
def refuseDependents (w : Writer) (operation : Operation) (dependents : List Dependent) :
    Option Writer :=
  dependents.foldlM (fun w d => w.refuseIf d.condition (integrityMessage d.table operation)) w

/-- Closes all blocks that are open. -/
def closeAll (w : Writer) : Writer :=
  if w.depth = 0 then w else closeAll w.endBlock
termination_by w.depth
decreasing_by
  change w.depth - 1 < w.depth
  omega

/-- The text when all blocks are closed, without white space at its end. -/
def finish (w : Writer) : String :=
  String.ofList (w.closeAll.text.toList.rdropWhile isBlank)

end Writer

namespace Redirection

/-- Writes the insert trigger. -/
def writeInsert (r : Redirection) : Option String := do
  let w := Writer.start.line (Statement.findKey r.base r.key .new).text
  let w := (w.openBlock Condition.keyFound.header).line (Statement.refuse duplicateKeyMessage).text
  let w ← w.otherwise
  some (w.line (r.write .insert .new .inserted).text).finish

/-- Writes the update trigger. -/
def writeUpdate (r : Redirection) : Option String := do
  let w := Writer.start.openBlock (Condition.changing r.key).header
  let w := w.line (Statement.findKey r.base r.key .new).text
  let w ← w.refuseIf .keyFound duplicateKeyMessage
  let w ← w.refuseDependents .update r.dependents
  let w := w.line (r.write .upsert .old .deleted).text
  let w := w.line (r.write .upsert .new .inserted).text
  let w ← w.otherwise
  some (w.line (r.write .upsert .new .updated).text).finish

/-- Writes the delete trigger. -/
def writeDelete (r : Redirection) : Option String := do
  let w ← Writer.start.refuseDependents .delete r.dependents
  some (w.line (r.write .upsert .old .deleted).text).finish

end Redirection

/-! ### What is written -/

namespace Writer

/-- The writer of these lines. -/
def of (lines : List String) (depth : Nat) : Writer :=
  { text := String.join (lines.map (· ++ "\n")), depth }

section

variable {lines : List String} {d : Nat}

theorem line_of (text : String) : (of lines d).line text = of (lines ++ [indented d text]) d := by
  simp [line, of, String.join_append, String.append_assoc]

theorem start_eq : start = of ["FOR EACH ROW", "BEGIN ATOMIC"] 1 := by
  decide +kernel

theorem openBlock_of (header : String) :
    (of lines d).openBlock header =
      of (lines ++ [indented d header, indented d "BEGIN"]) (d + 1) := by
  rw [openBlock, line_of, line_of, List.append_assoc]
  rfl

theorem endBlock_of : (of lines (d + 1)).endBlock = of (lines ++ [indented d "END"]) d :=
  line_of "END"

theorem closeBlock_of :
    (of lines (d + 1)).closeBlock = some (of (lines ++ [indented d "END"]) d) :=
  congrArg some endBlock_of

theorem otherwise_of :
    (of lines (d + 1)).otherwise =
      some (of (lines ++ [indented d "END", indented d "ELSE", indented d "BEGIN"]) (d + 1)) := by
  rw [otherwise, closeBlock_of, Option.bind_eq_bind, Option.bind_some, openBlock_of,
    List.append_assoc]
  rfl

theorem refuseIf_of (condition : Condition) (message : String) :
    (of lines d).refuseIf condition message =
      some (of (lines ++ (Body.refuseIf condition message .done).lines d) d) := by
  rw [refuseIf, openBlock_of, line_of, closeBlock_of, List.append_assoc, List.append_assoc]
  simp [Body.refuseIf, Body.lines, block]

theorem refuseDependents_of (operation : Operation) (dependents : List Dependent) :
    (of lines d).refuseDependents operation dependents =
      some (of (lines ++ dependents.flatMap (Dependent.refusal operation d)) d) := by
  unfold refuseDependents
  induction dependents generalizing lines with
  | nil => simp
  | cons dependent dependents ih =>
    rw [List.foldlM_cons, refuseIf_of, Option.bind_eq_bind, Option.bind_some, ih,
      List.append_assoc]
    rfl

theorem closeAll_of_zero : (of lines 0).closeAll = of lines 0 := by
  rw [closeAll]
  rfl

theorem closeAll_of_succ :
    (of lines (d + 1)).closeAll = (of (lines ++ [indented d "END"]) d).closeAll := by
  rw [closeAll, endBlock_of]
  rfl

/-- In a text each line but the last has a line break behind it. -/
theorem intercalate_append_singleton (lines : List String) (last : String) :
    String.intercalate "\n" (lines ++ [last]) = String.join (lines.map (· ++ "\n")) ++ last := by
  induction lines with
  | nil => simp
  | cons line lines ih =>
    rw [List.map_cons, String.join_cons, String.append_assoc, ← ih]
    cases lines with
    | nil => exact String.intercalate_cons_cons
    | cons next lines => exact String.intercalate_cons_cons

/-- At the end nothing is cut off but the last line break. -/
theorem finish_of_one : (of lines 1).finish = String.intercalate "\n" (lines ++ ["END"]) := by
  have htext : (of (lines ++ ["END"]) 0).text.toList =
      (String.join (lines.map (· ++ "\n"))).toList ++ ['E', 'N'] ++ ['D'] ++ ['\n'] := by
    simp [of, String.join_append]
  rw [finish, closeAll_of_succ, show indented 0 "END" = "END" from rfl, closeAll_of_zero, htext,
    List.rdropWhile_concat_pos _ _ _ (by decide), List.rdropWhile_concat_neg _ _ _ (by decide),
    intercalate_append_singleton]
  simp [← String.toList_inj]

theorem finish_of_two :
    (of lines 2).finish = String.intercalate "\n" (lines ++ [indented 1 "END", "END"]) := by
  have hclose : (of lines 2).finish = (of (lines ++ [indented 1 "END"]) 1).finish := by
    rw [finish, closeAll_of_succ, ← finish]
  rw [hclose, finish_of_one, List.append_assoc]
  rfl

end

end Writer

namespace Redirection

variable (r : Redirection)

/-- Texts of the same lines are the same. -/
theorem some_intercalate_eq_trigger {lines : List String} {body : Body}
    (h : lines = body.triggerLines) : some (String.intercalate "\n" lines) = some body.trigger := by
  rw [h, Body.trigger]

/-- Writing the insert trigger does not fail, and gives the text of its body. -/
theorem writeInsert_eq_some : r.writeInsert = some r.insert.trigger := by
  simp only [writeInsert, Writer.start_eq, Writer.line_of, Writer.openBlock_of, Writer.otherwise_of,
    Option.bind_eq_bind, Option.bind_some, Nat.reduceAdd, Writer.finish_of_two]
  refine some_intercalate_eq_trigger ?_
  simp [Body.triggerLines, insert, Body.lines, block]

/-- Writing the update trigger does not fail, and gives the text of its body. -/
theorem writeUpdate_eq_some : r.writeUpdate = some r.update.trigger := by
  simp only [writeUpdate, Writer.start_eq, Writer.line_of, Writer.openBlock_of,
    Writer.refuseIf_of, Writer.refuseDependents_of, Writer.otherwise_of, Option.bind_eq_bind,
    Option.bind_some, Nat.reduceAdd, Writer.finish_of_two]
  refine some_intercalate_eq_trigger ?_
  simp [Body.triggerLines, update, moveRow, Body.refuseIf, Body.lines, block,
    lines_refuseDependents]

/-- Writing the delete trigger does not fail, and gives the text of its body. -/
theorem writeDelete_eq_some : r.writeDelete = some r.delete.trigger := by
  simp only [writeDelete, Writer.start_eq, Writer.line_of, Writer.refuseDependents_of,
    Option.bind_eq_bind, Option.bind_some, Writer.finish_of_one]
  refine some_intercalate_eq_trigger ?_
  simp [Body.triggerLines, delete, Body.lines, lines_refuseDependents]

end Redirection

end Overlay
