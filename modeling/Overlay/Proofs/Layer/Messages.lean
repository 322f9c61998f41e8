import Overlay.Proofs.Layer.Triggers
import Overlay.Proofs.Text.Literal

/-!
# Messages of refusals

The update and the delete trigger of a layer refuse an operation if dependent rows exist, with a
message that names their table. Whatever the name is, the text behind `RAISE SQLEXCEPTION` is a
string literal that ends in front of the semicolon and is read as this message
(`Schema.messages_read_back`).
-/

namespace Overlay

open Text

/-! ### The text of a refusal -/

/-- The text of a block, `depth` blocks deep, that raises what `raised` stands for if the condition
holds. -/
def refusalText (depth : Nat) (condition : Condition) (raised : String) : String :=
  indented depth condition.header ++ "\n" ++ indented depth "BEGIN" ++ "\n" ++
    indented (depth + 1) "RAISE SQLEXCEPTION " ++ raised ++ ";" ++ "\n" ++
      indented depth "END" ++ "\n"

/-- In front of a semicolon the text is read as a string literal, up to the semicolon, and the
literal stands for the message. -/
def ReadAs (raised message : String) : Prop :=
  ∀ rest, literal (raised.toList ++ ';' :: rest) = some (message, ';' :: rest)

/-- For each of the look-ups of dependent rows, in order, the text has a block that refuses the
operation if there are such rows. What it raises is read as the message for the table of these
rows. -/
def RaisesMessages (text : String) (checks : List RowCheck) (operation : Operation) : Prop :=
  ∃ opening closing depth blocks, text = opening ++ String.join blocks ++ closing ∧
    List.Forall₂
      (fun (c : RowCheck) block => ∃ raised, block = refusalText depth c.condition raised ∧
        ReadAs raised (integrityMessage c.relation.name operation))
      checks blocks

section

variable {ls : List String} {operation : Operation} {depth : Nat}

theorem readAs_quoted (message : String) : ReadAs (quoted message) message := fun _ =>
  literal_eq_some_iff.2 ⟨rfl, by simp⟩

theorem join_flatMap {α : Type} (f : α → List String) (l : List α) :
    String.join (l.flatMap f) = String.join (l.map fun a => String.join (f a)) := by
  induction l with
  | nil => rfl
  | cons a l ih => rw [List.flatMap_cons, String.join_append, List.map_cons, String.join_cons, ih]

theorem Dependent.refusal_eq (operation : Operation) (depth : Nat) (d : Dependent) :
    d.refusal operation depth =
      [indented depth d.condition.header, indented depth "BEGIN",
        indented (depth + 1) (Statement.refuse (integrityMessage d.table operation)).text,
        indented depth "END"] := rfl

theorem Dependent.join_refusal (operation : Operation) (depth : Nat) (d : Dependent) :
    String.join ((d.refusal operation depth).map (· ++ "\n")) =
      refusalText depth d.condition (quoted (integrityMessage d.table operation)) := by
  rw [refusal_eq, Statement.text_refuse]
  generalize quoted (integrityMessage d.table operation) = raised
  simp only [refusalText, indented, List.map_cons, List.map_nil, String.join_cons, String.join_nil,
    String.append_empty, String.append_assoc]

/-- A run of lines of a body stands in the text of its trigger, each line with a line break. -/
theorem Body.exists_trigger_of_infix {body : Body} (h : ls <:+: body.lines 1) :
    ∃ opening closing,
      body.trigger = opening ++ String.join (ls.map (· ++ "\n")) ++ closing := by
  obtain ⟨before, after, hlines⟩ := h
  have htrigger : body.triggerLines =
      ("FOR EACH ROW" :: "BEGIN ATOMIC" :: before) ++ ls ++ after ++ ["END"] := by
    rw [triggerLines, ← hlines]
    simp
  refine ⟨String.join (("FOR EACH ROW" :: "BEGIN ATOMIC" :: before).map (· ++ "\n")),
    String.join (after.map (· ++ "\n")) ++ "END", ?_⟩
  rw [trigger, htrigger, Writer.intercalate_append_singleton, List.map_append, List.map_append,
    String.join_append, String.join_append, String.append_assoc]

end

/-! ### Triggers of a redirection -/

namespace Redirection

variable {r : Redirection} {operation : Operation} {depth : Nat}

/-- The rows of each dependent are looked up in a relation of its name. -/
def LooksUpByName (r : Redirection) : Prop :=
  ∀ d ∈ r.dependents, d.relation.name = d.table

/-- A trigger with the refusals of all dependents raises their messages. -/
theorem raisesMessages_of_infix (h : r.LooksUpByName) {body : Body}
    (hlines : r.dependents.flatMap (Dependent.refusal operation depth) <:+: body.lines 1) :
    RaisesMessages body.trigger r.rowChecks operation := by
  obtain ⟨opening, closing, htrigger⟩ := Body.exists_trigger_of_infix hlines
  refine ⟨opening, closing, depth, r.dependents.map fun d =>
    refusalText depth d.condition (quoted (integrityMessage d.table operation)), ?_, ?_⟩
  · rw [htrigger, List.map_flatMap, join_flatMap]
    simp only [Dependent.join_refusal]
  · rw [rowChecks, List.forall₂_map_left_iff, List.forall₂_map_right_iff, List.forall₂_same]
    intro d hd
    refine ⟨_, rfl, ?_⟩
    rw [h d hd]
    exact readAs_quoted _

theorem refusals_infix_update (r : Redirection) :
    r.dependents.flatMap (Dependent.refusal .update 2) <:+: r.update.lines 1 := by
  have hmove : r.dependents.flatMap (Dependent.refusal .update 2) <:+: r.moveRow.lines 2 := by
    rw [moveRow, Body.refuseIf, Body.lines, Body.lines, lines_refuseDependents]
    exact List.infix_cons
      ((List.prefix_append _ _).isInfix.trans (List.suffix_append _ _).isInfix)
  have hblock : r.moveRow.lines 2 <:+:
      block 1 (Condition.changing r.key).header (r.moveRow.lines 2) :=
    ⟨[_, _], [_], rfl⟩
  rw [update, Body.lines, List.append_assoc]
  exact (hmove.trans hblock).trans (List.prefix_append _ _).isInfix

theorem refusals_infix_delete (r : Redirection) :
    r.dependents.flatMap (Dependent.refusal .delete 1) <:+: r.delete.lines 1 := by
  rw [delete, lines_refuseDependents]
  exact (List.prefix_append _ _).isInfix

theorem raisesMessages_update (r : Redirection) (h : r.LooksUpByName) :
    RaisesMessages r.update.trigger r.rowChecks .update :=
  raisesMessages_of_infix h r.refusals_infix_update

theorem raisesMessages_delete (r : Redirection) (h : r.LooksUpByName) :
    RaisesMessages r.delete.trigger r.rowChecks .delete :=
  raisesMessages_of_infix h r.refusals_infix_delete

end Redirection

/-! ### Triggers of a layer -/

section

variable {config : Config} {s : Schema} {t : Table} {key : List String}

/-- Rows that refer to a table are looked up in relations with the names of their tables. -/
theorem Table.looksUpByName_redirection : (t.redirection config s key).LooksUpByName := by
  intro d hd
  obtain ⟨reference, -, rfl⟩ := List.mem_map.1 hd
  rfl

theorem Table.map_rowChecks_redirection :
    (t.redirection config s key).rowChecks.map (·.relation.name) =
      (s.referencing t.name).map (·.1.name) := by
  rw [Redirection.rowChecks, redirection, List.map_map, List.map_map]
  rfl

/-- The update and the delete trigger of a layer look up the rows of the tables that refer to its
own, reference by reference. Each look-up has its block in the text, and what the block raises is
read as the message for the table whose rows are looked up. -/
theorem Schema.messages_read_back {name : String} {l : Layer Plan} (hfirst : s.First name t)
    (hl : s.layer config name = .ok l) :
    (l.plan.update.rowChecks.map (·.relation.name) = (s.referencing t.name).map (·.1.name) ∧
        l.plan.delete.rowChecks.map (·.relation.name) = (s.referencing t.name).map (·.1.name)) ∧
      RaisesMessages l.written.plan.update l.plan.update.rowChecks .update ∧
        RaisesMessages l.written.plan.delete l.plan.delete.rowChecks .delete := by
  obtain ⟨t', key, hfirst', -, -, rfl⟩ := layer_eq_ok_iff_redirectable.1 hl
  obtain rfl : t' = t := hfirst'.unique hfirst
  let r := t'.redirection config s key
  have hupdate : (t'.layer config s key).plan.update = r.update := rfl
  have hdelete : (t'.layer config s key).plan.delete = r.delete := rfl
  have hnames : r.rowChecks.map (·.relation.name) = (s.referencing t'.name).map (·.1.name) :=
    t'.map_rowChecks_redirection
  have hlookUps : r.LooksUpByName := Table.looksUpByName_redirection
  simp only [hupdate, hdelete, Table.plan_written_layer, r.rowChecks_update,
    r.rowChecks_delete]
  exact ⟨⟨hnames, hnames⟩, r.raisesMessages_update hlookUps, r.raisesMessages_delete hlookUps⟩

end

/-- A table, and two tables whose names have quotes and which refer to it. -/
def Schema.quoting : Schema :=
  let column (name : String) : Column := { name, type := .integer, nullable := false }
  let owner (name : String) : Table :=
    { name, columns := [column "r"], primaryKey := none
      foreignKeys := [{ columns := ["r"], target := "t", targetColumns := ["k"] }] }
  { name := "s"
    tables :=
      [{ name := "t", columns := [column "k"], primaryKey := some ["k"], foreignKeys := [] },
        owner "\x27d\x27\x27", owner "\x27; END"] }

theorem Schema.messages_read_back_quoting :
    ∃ t l, quoting.First "t" t ∧ quoting.layer {} "t" = .ok l ∧
      l.plan.delete.rowChecks.map (·.relation.name) = ["\x27d\x27\x27", "\x27; END"] ∧
        RaisesMessages l.written.plan.delete l.plan.delete.rowChecks .delete := by
  have hfirst : quoting.First "t" quoting.tables[0] :=
    table?_eq_some_iff_first.1 (by decide +kernel)
  have hlayer : quoting.layer {} "t" = .ok (quoting.tables[0].layer {} quoting ["k"]) := by
    decide +kernel
  obtain ⟨⟨-, hnames⟩, -, hdelete⟩ := messages_read_back hfirst hlayer
  have howners : (quoting.referencing quoting.tables[0].name).map (·.1.name) =
      ["\x27d\x27\x27", "\x27; END"] := by
    decide +kernel
  exact ⟨_, _, hfirst, hlayer, hnames.trans howners, hdelete⟩

end Overlay
