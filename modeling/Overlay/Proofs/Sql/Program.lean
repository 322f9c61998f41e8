import Overlay.Proofs.Layer.Triggers
import Overlay.Proofs.SchemaText.RoundTrip
import Overlay.Proofs.Sql.Reading
import Overlay.Proofs.Text.Literal

/-!
# Reading triggers

A trigger is read line by line: each line is a statement, the header of a block or a bracket
(`Part`). The parts are put together from the last to the first, so that a block is complete where
its header comes up (`Part.add`). A plan of which all names are words is read back from its four
texts (`PlanText.read_of_worded`).
-/

namespace Overlay

open Sql Text TriggerText

/-! ### Parts of a trigger -/

/-- What a line of a trigger is. -/
inductive Part where
  | statement (statement : Statement)
  /-- The header of a block that runs if the condition holds. -/
  | header (condition : Condition)
  /-- The header of a block that runs if the condition of the block in front does not hold. -/
  | otherwise
  | opening
  | closing
  deriving DecidableEq, Repr

/-- The message of a line that refuses the operation. -/
def refusal (line : List Char) : Option String := do
  let cs ← (line.dropWhile isBlank).dropPrefix? "RAISE SQLEXCEPTION ".toList
  let (message, cs) ← literal cs
  if cs = [';'] then some message else none

/-- The header with this condition, up to the closing parenthesis. -/
def Part.ofCondition (ts : List Token) : Option Part :=
  match Condition.reader ts with
  | some (condition, [.sign ')']) => some (header condition)
  | _ => none

/-- The statement with these tokens. -/
def Part.ofStatement (ts : List Token) : Option Part :=
  match Statement.reader ts with
  | some (s, []) => some (statement s)
  | _ => none

/-- The part of a trigger that a line stands for. -/
def Part.read (line : List Char) : Option Part :=
  match scan [] line with
  | [.word "BEGIN"] => some opening
  | [.word "END"] => some closing
  | [.word "ELSE"] => some otherwise
  | .word "IF" :: .sign '(' :: ts => ofCondition ts
  | .word "RAISE" :: _ => (refusal line).map fun message => statement (.refuse message)
  | ts => ofStatement ts

/-- What stands behind a line, as far as it belongs together. -/
inductive Frame where
  /-- The rest of a block. -/
  | body (rest : Body)
  /-- A block without its header. -/
  | block (inner : Body)
  /-- A block for the case that a condition does not hold, and what follows it. -/
  | otherwise (no rest : Body)
  deriving DecidableEq, Repr

/-- Puts a part in front of what stands behind it. -/
def Part.add : Part → List Frame → Option (List Frame)
  | closing, frames => some (.body .done :: frames)
  | opening, .body inner :: frames => some (.block inner :: frames)
  | statement s, .body rest :: frames => some (.body (.run s rest) :: frames)
  | otherwise, .block no :: .body rest :: frames => some (.otherwise no rest :: frames)
  | header c, .block yes :: .body rest :: frames => some (.body (.guard c yes rest) :: frames)
  | header c, .block yes :: .otherwise no rest :: frames =>
    some (.body (.branch c yes no rest) :: frames)
  | _, _ => none

/-- The body of the trigger that a text stands for. -/
def Body.read (trigger : String) : Option Body :=
  match TriggerText.lines trigger with
  | event :: atomic :: inner => do
    let parts ← inner.mapM Part.read
    let frames ← parts.foldrM Part.add []
    match frames with
    | [.body body] =>
      if scan [] event = tokens "FOR EACH ROW" ∧ scan [] atomic = tokens "BEGIN ATOMIC" then
        some body
      else none
    | _ => none
  | _ => none

/-- The plan that four texts stand for. -/
def PlanText.read (t : PlanText) : Option Plan := do
  let select ← MergeQuery.read t.select
  let insert ← Body.read t.insert
  let update ← Body.read t.update
  let delete ← Body.read t.delete
  some { select, insert, update, delete }

/-! ### Names that are words -/

/-- The names in a body are words. -/
def Body.Worded : Body → Prop
  | done => True
  | run statement rest => statement.Worded ∧ rest.Worded
  | guard condition yes rest => condition.Worded ∧ yes.Worded ∧ rest.Worded
  | branch condition yes no rest => condition.Worded ∧ yes.Worded ∧ no.Worded ∧ rest.Worded

/-- The names in a plan are words. -/
structure Plan.Worded (p : Plan) : Prop where
  select : p.select.Worded
  insert : p.insert.Worded
  update : p.update.Worded
  delete : p.delete.Worded

/-! ### Lines are read back -/

section

variable {d : Nat} {statement : Statement} {condition : Condition} {text : String}

theorem scan_indented (d : Nat) (text : String) :
    scan [] (indented d text).toList = tokens text := by
  have hblanks (n : Nat) (cs : List Char) : scan [] (List.replicate n ' ' ++ cs) = scan [] cs := by
    induction n with
    | zero => rfl
    | succ n ih =>
      rw [List.replicate_succ, List.cons_append, scan_cons_of_not_wordChar (by decide), ih]
      rfl
  rw [toList_indented, hblanks]
  rfl

theorem Part.read_begin : read (indented d "BEGIN").toList = some opening := by
  rw [read, scan_indented, tokens_of_isWord (by decide)]
  rfl

theorem Part.read_end : read (indented d "END").toList = some closing := by
  rw [read, scan_indented, tokens_of_isWord (by decide)]
  rfl

theorem Part.read_else : read (indented d "ELSE").toList = some otherwise := by
  rw [read, scan_indented, tokens_of_isWord (by decide)]
  rfl

theorem Part.read_header (h : condition.Worded) :
    read (indented d condition.header).toList = some (header condition) := by
  have hstart (b : String) : tokens ("IF (" ++ b) = .word "IF" :: .sign '(' :: tokens b :=
    tokens_append_of_eq (by decide) (by decide : _ = [.word "IF", .sign '('])
  have hend (a : String) : tokens (a ++ ")") = tokens a ++ [.sign ')'] := by
    have htokens : tokens ")" = [.sign ')'] := by decide
    rw [tokens_append_of_start (by decide), htokens]
  have hstops : Stops (columnOf "CHANGING") (.word "OR") [.sign ')'] := fun _ h => by cases h
  rw [read, scan_indented, Condition.header, hend, hstart]
  change ofCondition (tokens condition.text ++ [.sign ')']) = _
  rw [ofCondition, Condition.reader_text h hstops]
  rfl

theorem Part.read_refuse (message : String) :
    read (indented d (Statement.refuse message).text).toList =
      some (.statement (.refuse message)) := by
  have hraise : tokens "RAISE SQLEXCEPTION " = [.word "RAISE", .word "SQLEXCEPTION"] := by decide
  have hfirst : scan [] (indented d (Statement.refuse message).text).toList =
      .word "RAISE" :: .word "SQLEXCEPTION" :: tokens (quoted message ++ ";") := by
    rw [scan_indented, Statement.text_refuse, String.append_assoc]
    exact tokens_append_of_eq (by decide) hraise
  have hline : (indented d (Statement.refuse message).text).toList.dropWhile isBlank =
      "RAISE SQLEXCEPTION ".toList ++ ((quoted message).toList ++ [';']) := by
    have hblanks : ∀ c ∈ List.replicate (4 * d) ' ', isBlank c = true := fun c hc =>
      List.eq_of_mem_replicate hc ▸ by decide
    rw [toList_indented, List.dropWhile_append_of_pos hblanks, Statement.text_refuse,
      String.append_assoc, String.toList_append, String.toList_append]
    rfl
  have hmessage : refusal (indented d (Statement.refuse message).text).toList = some message := by
    have hliteral : literal ((quoted message).toList ++ [';']) = some (message, [';']) :=
      literal_eq_some_iff.2 ⟨rfl, by decide⟩
    rw [refusal, hline, List.dropPrefix?_append_of_beq _ (beq_self_eq_true _)]
    simp [hliteral]
  rw [read, hfirst]
  change (refusal _).map _ = _
  rw [hmessage]
  rfl

theorem Part.ofStatement_text (h : Reads Statement.reader statement.text statement) :
    ofStatement (tokens statement.text) = some (.statement statement) := by
  have hread := h []
  rw [List.append_nil] at hread
  rw [ofStatement, hread]

/-- The first word of a statement tells that it does not refuse the operation. -/
theorem Part.read_of_verb {verb : String} {ts : List Token}
    (htokens : tokens text = .word verb :: ts) (hverb : verb ∈ ["DECLARE", "INSERT", "UPSERT"]) :
    read (indented d text).toList = ofStatement (tokens text) := by
  rw [read, scan_indented, htokens]
  simp only [List.mem_cons, List.not_mem_nil, or_false] at hverb
  obtain rfl | rfl | rfl := hverb <;> rfl

theorem Part.read_statement (h : statement.Worded) :
    read (indented d statement.text).toList = some (.statement statement) := by
  cases statement with
  | findKey relation key image =>
    rw [read_of_verb (Statement.tokens_findKey relation key image) (by simp)]
    exact ofStatement_text (Statement.reads_findKey h.1 h.2)
  | write w =>
    have hmode : IsWord w.mode.text ∧ w.mode.text ∈ ["DECLARE", "INSERT", "UPSERT"] := by
      cases w.mode <;> decide
    have htokens := w.tokens_text h.2.ne_nil
    rw [tokens_of_isWord hmode.1] at htokens
    have htext : (Statement.write w).text = w.text := rfl
    rw [← htext] at htokens
    rw [read_of_verb htokens hmode.2]
    refine ofStatement_text ?_
    rw [htext]
    exact RowWrite.reads_text h.1 h.2
  | refuse message => exact read_refuse message

end

/-! ### Bodies are read back -/

namespace Body

/-- The parts of a body, in the order of its lines. -/
def parts : Body → List Part
  | done => []
  | run statement rest => .statement statement :: rest.parts
  | guard condition yes rest =>
    .header condition :: .opening :: yes.parts ++ .closing :: rest.parts
  | branch condition yes no rest =>
    .header condition :: .opening :: yes.parts ++
      .closing :: .otherwise :: .opening :: no.parts ++ .closing :: rest.parts

/-- The parts of a body make up this body, in front of whatever stands behind them. -/
theorem foldrM_parts (body : Body) (frames : List Frame) :
    body.parts.foldrM Part.add (.body .done :: frames) = some (.body body :: frames) := by
  induction body generalizing frames with
  | done => rfl
  | run statement rest ih =>
    rw [parts, List.foldrM_cons, ih]
    rfl
  | guard condition yes rest ihyes ihrest =>
    have hyes : yes.parts.foldrM Part.add (.body .done :: .body rest :: frames) = _ := ihyes _
    simp [parts, List.foldrM_cons, List.foldrM_append, ihrest, hyes, Part.add]
  | branch condition yes no rest ihyes ihno ihrest =>
    simp [parts, List.foldrM_cons, List.foldrM_append, ihrest, ihno, ihyes, Part.add]

theorem mapM_read_block (d : Nat) {header : String} {inner : List String} {part : Part}
    {parts : List Part} (hheader : Part.read (indented d header).toList = some part)
    (hinner : (inner.map String.toList).mapM Part.read = some parts) :
    ((block d header inner).map String.toList).mapM Part.read =
      some (part :: .opening :: parts ++ [.closing]) := by
  rw [map_block]
  simp [hheader, hinner, Part.read_begin, Part.read_end]

/-- The lines of a body are read as its parts. -/
theorem mapM_read_lines {body : Body} (h : body.Worded) (d : Nat) :
    ((body.lines d).map String.toList).mapM Part.read = some body.parts := by
  induction body generalizing d with
  | done => rfl
  | run statement rest ih =>
    obtain ⟨hstatement, hrest⟩ := h
    rw [lines, List.map_cons, List.mapM_cons, Part.read_statement hstatement, ih hrest]
    rfl
  | guard condition yes rest ihyes ihrest =>
    obtain ⟨hcondition, hyes, hrest⟩ := h
    have hblock := mapM_read_block d (Part.read_header hcondition) (ihyes hyes (d + 1))
    simp [lines, parts, hblock, ihrest hrest d]
  | branch condition yes no rest ihyes ihno ihrest =>
    obtain ⟨hcondition, hyes, hno, hrest⟩ := h
    have hblock := mapM_read_block d (Part.read_header hcondition) (ihyes hyes (d + 1))
    have helse := mapM_read_block d Part.read_else (ihno hno (d + 1))
    simp [lines, parts, hblock, helse, ihrest hrest d]

end Body

/-! ### Texts of words have no line break -/

theorem IsWord.unbroken {name : String} (h : IsWord name) : Unbroken name :=
  h.newline_notMem

theorem Relation.Worded.unbroken_text {r : Relation} (h : r.Worded) : Unbroken r.text :=
  Relation.unbroken_text h.schema.unbroken h.name.unbroken

theorem Words.unbroken {names : List String} (h : Words names) : ∀ n ∈ names, Unbroken n :=
  fun n hn => (h.isWord n hn).unbroken

theorem Statement.Worded.unbroken_text {statement : Statement} (h : statement.Worded) :
    Unbroken statement.text := by
  cases statement with
  | findKey relation key image =>
    exact Statement.unbroken_findKey h.1.unbroken_text h.2.unbroken
  | write w => exact RowWrite.unbroken_text h.1.unbroken_text h.2.unbroken
  | refuse message => exact Statement.unbroken_refuse h

theorem Condition.Worded.unbroken_header {condition : Condition} (h : condition.Worded) :
    Unbroken condition.header := by
  refine Condition.unbroken_header ?_
  cases condition with
  | keyFound => decide
  | changing columns =>
    exact unbroken_intercalate (by decide) (List.forall_mem_map.2 fun c hc =>
      unbroken_qualified (by decide) (h.unbroken c hc))
  | rowsExist relation pairs =>
    obtain ⟨hrelation, -, hwords⟩ := h
    have hequations : Unbroken (equations (pairs.map fun pair =>
        (pair.1, qualified "OLD" pair.2))) :=
      unbroken_equations (List.forall_mem_map.2 fun pair hpair =>
        ⟨(hwords pair hpair).1.unbroken,
          unbroken_qualified (by decide) (hwords pair hpair).2.unbroken⟩)
    change Unbroken ("(SELECT COUNT(*) > 0 FROM " ++ relation.text ++ " WHERE " ++
      equations (pairs.map fun pair => (pair.1, qualified "OLD" pair.2)) ++ ")")
    simp only [unbroken_append_iff, hrelation.unbroken_text, hequations]
    decide

theorem Body.Worded.unbroken_texts {body : Body} (h : body.Worded) :
    ∀ text ∈ body.texts, Unbroken text := by
  induction body with
  | done => exact List.forall_mem_nil _
  | run statement rest ih => exact List.forall_mem_cons.2 ⟨h.1.unbroken_text, ih h.2⟩
  | guard condition yes rest ihyes ihrest =>
    obtain ⟨hcondition, hyes, hrest⟩ := h
    exact List.forall_mem_append.2
      ⟨List.forall_mem_cons.2 ⟨hcondition.unbroken_header, ihyes hyes⟩, ihrest hrest⟩
  | branch condition yes no rest ihyes ihno ihrest =>
    obtain ⟨hcondition, hyes, hno, hrest⟩ := h
    exact List.forall_mem_append.2 ⟨List.forall_mem_append.2
      ⟨List.forall_mem_cons.2 ⟨hcondition.unbroken_header, ihyes hyes⟩, ihno hno⟩, ihrest hrest⟩

/-! ### Plans are read back -/

/-- The body of a trigger is read from its text. -/
theorem Body.read_trigger {body : Body} (h : body.Worded) : read body.trigger = some body := by
  have hlast : Part.read "END".toList = some .closing := Part.read_end (d := 0)
  have hparts : ((body.lines 1).map String.toList ++ ["END".toList]).mapM Part.read =
      some (body.parts ++ [.closing]) := by
    rw [List.mapM_append, mapM_read_lines h, List.mapM_cons, hlast]
    rfl
  have hbody : (body.parts ++ [Part.closing]).foldrM Part.add [] = some [.body body] := by
    rw [List.foldrM_append]
    exact body.foldrM_parts []
  rw [read, body.lines_trigger h.unbroken_texts, map_triggerLines]
  simp only [List.cons_append, hparts, hbody, Option.bind_eq_bind, Option.bind_some]
  exact if_pos ⟨rfl, rfl⟩

/-- The four texts of a plan stand for this plan if all its names are words. -/
theorem PlanText.read_of_worded {p : Plan} (h : p.Worded) : p.text.read = some p := by
  rw [read, Plan.text, MergeQuery.read_of_worded h.select, Body.read_trigger h.insert,
    Body.read_trigger h.update, Body.read_trigger h.delete]
  rfl

end Overlay
