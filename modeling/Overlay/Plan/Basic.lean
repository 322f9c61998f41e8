import Overlay.Plan.Trigger
import Overlay.Schema.Basic

/-!
# Redirection plans

A table that cannot be written to is put behind a view. Writes go to a shadow table, whose rows
carry a status; the view shows the base rows without shadow row and the shadow rows that are not
marked as deleted. A `Plan` is the query of the view and the bodies of its three triggers.

* An insert is refused if the base table has the key; else a shadow row is inserted.
* An update that assigns a key column is refused if the base table has the new key or a row of
  another table refers to the old one; else it deletes the old row and inserts the new one. Any
  other update writes the new row.
* A delete is refused if a row of another table refers to the row; else it is marked as deleted.
-/

namespace Overlay

/-- The query of a view: the base rows without shadow row and the shadow rows with another status
than `hidden`. -/
structure MergeQuery where
  columns : List String
  key : List String
  base : Relation
  shadow : Relation
  hidden : RowStatus
  deriving DecidableEq, Repr

/-- The query of a view and the bodies of its triggers. -/
structure Plan where
  select : MergeQuery
  insert : Body
  update : Body
  delete : Body
  deriving DecidableEq, Repr

/-- A table whose rows refer to the redirected table: its name, the relation in which its rows are
looked up, and its columns with the columns they refer to. -/
structure Dependent where
  table : String
  relation : Relation
  pairs : List (String × String)
  deriving DecidableEq, Repr

/-- What a plan is made for. -/
structure Redirection where
  columns : List String
  key : List String
  base : Relation
  shadow : Relation
  dependents : List Dependent
  deriving DecidableEq, Repr

/-- The name of the shadow table of a table. -/
def shadowName (table : String) : String :=
  table ++ "_REDIRECTED"

/-! ### The parts of a plan -/

/-- The operations that a dependent row stands against. -/
inductive Operation where
  | update
  | delete
  deriving DecidableEq, Repr

/-- The word for the operations of a kind. -/
def Operation.plural : Operation → String
  | update => "updates"
  | delete => "deletes"

/-- The message when rows of `table` stand against an operation. -/
def integrityMessage (table : String) (operation : Operation) : String :=
  "referential integrity check failed on " ++ table ++ " table, cascade " ++ operation.plural ++
    " are not supported"

/-- The message when a row with the key exists. -/
def duplicateKeyMessage : String := "duplicate key"

/-- Refuses the operation if the condition holds, and goes on with the rest if not. -/
def Body.refuseIf (condition : Condition) (message : String) (rest : Body) : Body :=
  .guard condition (.run (.refuse message) .done) rest

/-- The condition that rows of a dependent table refer to the old row. -/
def Dependent.condition (d : Dependent) : Condition :=
  .rowsExist d.relation d.pairs

namespace Redirection

/-- Writes an image of the row to the shadow table. -/
def write (r : Redirection) (mode : WriteMode) (image : RowImage) (status : RowStatus) :
    Statement :=
  .write { mode, target := r.shadow, columns := r.columns, image, status }

/-- Refuses the operation if a row of any dependent table refers to the old row. -/
def refuseDependents (r : Redirection) (operation : Operation) (rest : Body) : Body :=
  r.dependents.foldr
    (fun d rest => .refuseIf d.condition (integrityMessage d.table operation) rest) rest

/-- What is listed of a body is listed refusal by refusal, and then for the rest. -/
theorem refuseDependents_eq_flatMap {α : Type} (list : Body → List α) {refusal : Dependent → List α}
    {operation : Operation}
    (h : ∀ d rest, list (.refuseIf d.condition (integrityMessage d.table operation) rest) =
      refusal d ++ list rest) (r : Redirection) (rest : Body) :
    list (r.refuseDependents operation rest) = r.dependents.flatMap refusal ++ list rest := by
  unfold refuseDependents
  induction r.dependents with
  | nil => rfl
  | cons d dependents ih => rw [List.foldr_cons, h, ih, List.flatMap_cons, List.append_assoc]

/-- The query of the view. -/
def select (r : Redirection) : MergeQuery :=
  { columns := r.columns, key := r.key, base := r.base, shadow := r.shadow, hidden := .deleted }

/-- The body of the insert trigger. -/
def insert (r : Redirection) : Body :=
  .run (.findKey r.base r.key .new) <|
  .branch .keyFound
    (.run (.refuse duplicateKeyMessage) .done)
    (.run (r.write .insert .new .inserted) .done)
    .done

/-- What an update does that assigns a key column. -/
def moveRow (r : Redirection) : Body :=
  .run (.findKey r.base r.key .new) <|
  .refuseIf .keyFound duplicateKeyMessage <|
  r.refuseDependents .update <|
  .run (r.write .upsert .old .deleted) <|
  .run (r.write .upsert .new .inserted) .done

/-- The body of the update trigger. -/
def update (r : Redirection) : Body :=
  .branch (.changing r.key) r.moveRow (.run (r.write .upsert .new .updated) .done) .done

/-- The body of the delete trigger. -/
def delete (r : Redirection) : Body :=
  r.refuseDependents .delete <| .run (r.write .upsert .old .deleted) .done

/-- The plan for a redirection. -/
def plan (r : Redirection) : Plan :=
  { select := r.select, insert := r.insert, update := r.update, delete := r.delete }

end Redirection

/-! ### Text -/

/-- The text of a query: the base relation joined with the shadow relation, then the shadow relation
alone. -/
def MergeQuery.text (q : MergeQuery) : String :=
  "SELECT " ++ columnList (q.columns.map (qualified "o")) ++ " FROM " ++ q.base.text ++
    " AS o LEFT OUTER JOIN " ++ q.shadow.text ++ " AS m ON (" ++
    equations (q.key.map fun k => (qualified "o" k, qualified "m" k)) ++ ") WHERE " ++
    qualified "m" statusColumn ++ " IS NULL \n UNION ALL \nSELECT " ++ columnList q.columns ++
    " FROM " ++ q.shadow.text ++ " WHERE " ++ statusColumn ++ " <> " ++ q.hidden.text

/-- The four texts of a plan. -/
structure PlanText where
  select : String
  insert : String
  update : String
  delete : String
  deriving DecidableEq, Repr

/-- A plan in writing. -/
def Plan.text (p : Plan) : PlanText :=
  { select := p.select.text
    insert := p.insert.trigger
    update := p.update.trigger
    delete := p.delete.trigger }

end Overlay
