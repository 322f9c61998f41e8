import Overlay.Plan.Basic
import Overlay.Proofs.Case.Text

/-!
# Plans in lower case

A redirection with all its names in lower case has the plan of the redirection, in lower case, and
the texts of the two plans are equal up to case: line by line, by induction on trigger bodies.
-/

namespace Overlay

open Text

/-! ### Names in lower case -/

/-- The relation with its names in lower case. -/
def Relation.lower (r : Relation) : Relation :=
  { schema := r.schema.toLower, name := r.name.toLower }

def RowWrite.lower (w : RowWrite) : RowWrite :=
  { w with target := w.target.lower, columns := w.columns.map String.toLower }

def Statement.lower : Statement → Statement
  | findKey relation key image => findKey relation.lower (key.map String.toLower) image
  | write row => write row.lower
  | refuse message => refuse message.toLower

def Condition.lower : Condition → Condition
  | keyFound => keyFound
  | changing columns => changing (columns.map String.toLower)
  | rowsExist relation pairs =>
    rowsExist relation.lower (pairs.map (Prod.map String.toLower String.toLower))

/-- The body with all names and messages in lower case. -/
def Body.lower : Body → Body
  | done => done
  | run statement rest => run statement.lower rest.lower
  | guard condition yes rest => guard condition.lower yes.lower rest.lower
  | branch condition yes no rest => branch condition.lower yes.lower no.lower rest.lower

def MergeQuery.lower (q : MergeQuery) : MergeQuery :=
  { columns := q.columns.map String.toLower
    key := q.key.map String.toLower
    base := q.base.lower
    shadow := q.shadow.lower
    hidden := q.hidden }

def Plan.lower (p : Plan) : Plan :=
  { select := p.select.lower
    insert := p.insert.lower
    update := p.update.lower
    delete := p.delete.lower }

def Dependent.lower (d : Dependent) : Dependent :=
  { table := d.table.toLower
    relation := d.relation.lower
    pairs := d.pairs.map (Prod.map String.toLower String.toLower) }

/-- The redirection with all names in lower case. -/
def Redirection.lower (r : Redirection) : Redirection :=
  { columns := r.columns.map String.toLower
    key := r.key.map String.toLower
    base := r.base.lower
    shadow := r.shadow.lower
    dependents := r.dependents.map Dependent.lower }

/-! ### The plan of a redirection -/

theorem toLower_integrityMessage (table : String) (operation : Operation) :
    (integrityMessage table operation).toLower = integrityMessage table.toLower operation := by
  have hhead : "referential integrity check failed on ".toLower =
      "referential integrity check failed on " := toLower_eq_iff_toList.2 (by decide)
  have hmiddle : " table, cascade ".toLower = " table, cascade " :=
    toLower_eq_iff_toList.2 (by decide)
  have hoperation : operation.plural.toLower = operation.plural := by
    cases operation <;> exact toLower_eq_iff_toList.2 (by decide)
  have htail : " are not supported".toLower = " are not supported" :=
    toLower_eq_iff_toList.2 (by decide)
  unfold integrityMessage
  simp only [toLower_append, hhead, hmiddle, hoperation, htail]

theorem toLower_duplicateKeyMessage : duplicateKeyMessage.toLower = duplicateKeyMessage :=
  toLower_eq_iff_toList.2 (by decide)

namespace Redirection

variable (r : Redirection)

theorem refuseDependents_lower (operation : Operation) (rest : Body) :
    r.lower.refuseDependents operation rest.lower = (r.refuseDependents operation rest).lower := by
  unfold refuseDependents lower
  induction r.dependents with
  | nil => rfl
  | cons d dependents ih =>
    simp only [List.map_cons, List.foldr_cons] at ih ⊢
    rw [ih]
    simp only [Body.refuseIf, Body.lower, Statement.lower, toLower_integrityMessage]
    rfl

theorem insert_lower : r.lower.insert = r.insert.lower := by
  simp only [insert, Body.lower, Statement.lower, toLower_duplicateKeyMessage]
  rfl

theorem update_lower : r.lower.update = r.update.lower := by
  have hmove : r.lower.moveRow = r.moveRow.lower := by
    simp only [moveRow, Body.lower, Body.refuseIf, Statement.lower, toLower_duplicateKeyMessage,
      ← refuseDependents_lower]
    rfl
  simp only [update, Body.lower, hmove]
  rfl

theorem delete_lower : r.lower.delete = r.delete.lower := by
  rw [delete, delete, ← refuseDependents_lower]
  rfl

theorem plan_lower : r.lower.plan = r.plan.lower := by
  simp only [plan, Plan.lower, insert_lower, update_lower, delete_lower]
  rfl

end Redirection

/-! ### Texts of statements and conditions -/

theorem Relation.toLower_text_lower (r : Relation) : r.lower.text.toLower = r.text.toLower := by
  unfold lower text
  simp

theorem toLower_qualified_toLower (owner column : String) :
    (qualified owner column.toLower).toLower = (qualified owner column).toLower := by
  simp [qualified]

theorem toLower_columnList_map_toLower (columns : List String) :
    (columnList (columns.map String.toLower)).toLower = (columnList columns).toLower := by
  simp [columnList, toLower_intercalate, Function.comp_def]

theorem toLower_columnList_qualified (owner : String) (columns : List String) :
    (columnList ((columns.map String.toLower).map (qualified owner))).toLower =
      (columnList (columns.map (qualified owner))).toLower := by
  unfold columnList
  rw [List.map_map]
  exact toLower_intercalate_map_congr fun c _ => toLower_qualified_toLower owner c

/-- Equations are equal up to case if their sides are. -/
theorem toLower_equations_congr {α : Type} {l : List α} {f g : α → String × String}
    (h : ∀ a, (f a).1.toLower = (g a).1.toLower ∧ (f a).2.toLower = (g a).2.toLower) :
    (equations (l.map f)).toLower = (equations (l.map g)).toLower := by
  unfold equations
  rw [List.map_map, List.map_map]
  apply toLower_intercalate_map_congr
  intro a _
  simp [h a]

theorem RowWrite.toLower_text_lower (w : RowWrite) : w.lower.text.toLower = w.text.toLower := by
  unfold lower text
  simp only [toLower_append, Relation.toLower_text_lower, toLower_columnList_map_toLower,
    toLower_columnList_qualified]

theorem Statement.toLower_text_lower (statement : Statement) :
    statement.lower.text.toLower = statement.text.toLower := by
  cases statement with
  | findKey relation key image =>
    unfold lower text
    simp only [toLower_append, Relation.toLower_text_lower, List.map_map]
    congr 2
    exact toLower_equations_congr fun k =>
      ⟨toLower_toLower k, toLower_qualified_toLower image.text k⟩
  | write row => exact row.toLower_text_lower
  | refuse message =>
    unfold lower text
    simp only [toLower_append, toLower_quoted, toLower_toLower]

theorem Condition.toLower_text_lower (condition : Condition) :
    condition.lower.text.toLower = condition.text.toLower := by
  cases condition with
  | keyFound => rfl
  | changing columns =>
    unfold lower text
    simp only [List.map_map]
    exact toLower_intercalate_map_congr fun c _ => toLower_qualified_toLower "CHANGING" c
  | rowsExist relation pairs =>
    unfold lower text
    simp only [toLower_append, Relation.toLower_text_lower, List.map_map]
    congr 2
    exact toLower_equations_congr fun pair =>
      ⟨toLower_toLower pair.1, toLower_qualified_toLower RowImage.old.text pair.2⟩

theorem MergeQuery.toLower_text_lower (q : MergeQuery) :
    q.lower.text.toLower = q.text.toLower := by
  have hequations : (equations (q.lower.key.map fun k => (qualified "o" k, qualified "m" k))).toLower =
      (equations (q.key.map fun k => (qualified "o" k, qualified "m" k))).toLower := by
    change (equations ((q.key.map String.toLower).map _)).toLower = _
    rw [List.map_map]
    exact toLower_equations_congr fun k =>
      ⟨toLower_qualified_toLower "o" k, toLower_qualified_toLower "m" k⟩
  unfold text
  simp only [toLower_append, hequations]
  unfold lower
  simp only [Relation.toLower_text_lower, toLower_columnList_map_toLower,
    toLower_columnList_qualified]

/-! ### Texts of triggers -/

theorem Condition.toLower_header_lower (condition : Condition) :
    condition.lower.header.toLower = condition.header.toLower := by
  unfold header
  simp only [toLower_append, toLower_text_lower]

/-- The lines of a block in lower case, of its header and inner lines in lower case. -/
theorem map_toLower_block (depth : Nat) (header : String) (inner : List String) :
    (block depth header inner).map String.toLower =
      indented depth header.toLower :: indented depth "BEGIN".toLower ::
        inner.map String.toLower ++ [indented depth "END".toLower] := by
  simp [block, toLower_indented]

theorem Body.map_toLower_lines_lower (body : Body) (depth : Nat) :
    (body.lower.lines depth).map String.toLower = (body.lines depth).map String.toLower := by
  induction body generalizing depth with
  | done => rfl
  | run statement rest ih =>
    simp only [lower, lines, List.map_cons, toLower_indented, Statement.toLower_text_lower, ih]
  | guard condition yes rest ihyes ihrest =>
    simp only [lower, lines, List.map_append, map_toLower_block, Condition.toLower_header_lower,
      ihyes, ihrest]
  | branch condition yes no rest ihyes ihno ihrest =>
    simp only [lower, lines, List.map_append, map_toLower_block, Condition.toLower_header_lower,
      ihyes, ihno, ihrest]

theorem Body.toLower_trigger_lower (body : Body) :
    body.lower.trigger.toLower = body.trigger.toLower := by
  unfold trigger triggerLines
  rw [toLower_intercalate, toLower_intercalate]
  simp only [List.map_cons, List.map_append, map_toLower_lines_lower]

/-! ### Plans in writing -/

/-- The texts of a plan in lower case. -/
def PlanText.lower (p : PlanText) : PlanText :=
  { select := p.select.toLower
    insert := p.insert.toLower
    update := p.update.toLower
    delete := p.delete.toLower }

theorem Plan.lower_text_lower (p : Plan) : p.lower.text.lower = p.text.lower := by
  simp only [text, lower, PlanText.lower, MergeQuery.toLower_text_lower,
    Body.toLower_trigger_lower]

/-- The texts made for a redirection in lower case are those made for the redirection, up to
case. -/
theorem Redirection.lower_text_plan (r : Redirection) :
    r.lower.plan.text.lower = r.plan.text.lower := by
  rw [plan_lower, Plan.lower_text_lower]

end Overlay
