import Overlay.Proofs.Sql.Trigger

/-!
# Running plans

The query of a plan is evaluated as it is written: a left outer join of the base relation with the
shadow relation, of which the rows without status are kept, together with the visible shadow rows
(`MergeQuery.eval`). A run is a sequence of operations on the view, each of which fires the trigger
of its kind (`Plan.fire`) and is accepted or refused.
-/

namespace Overlay

open Sql Text

/-! ### Queries -/

section

variable {α : Type}

/-- The left outer join: each row of the left with each row of the right that belongs to it, or
without one. -/
def leftJoin (on : Row α → Row α → Bool) (left right : List (Row α)) :
    List (Row α × Option (Row α)) :=
  left.flatMap fun o =>
    match right.filter (on o) with
    | [] => [(o, none)]
    | partners => partners.map fun m => (o, some m)

variable [DecidableEq α]

/-- The status of the shadow row of a join, null if there is none. -/
def joinedStatus (m : Option (Row α)) : Value α :=
  (m.map (Row.get · statusColumn)).getD .null

/-- The rows of a query. -/
def MergeQuery.eval (q : MergeQuery) (db : Database α) : List (Row α) :=
  let base := db.rows q.base
  let shadow := db.rows q.shadow
  (((leftJoin (Row.agree q.key) base shadow).filter fun pair => joinedStatus pair.2 == .null).map
      fun pair => pair.1.project q.columns) ++
    (shadow.filter fun m => (m.get statusColumn).differs (.number q.hidden.code)).map
      (Row.project q.columns)

end

/-- A left outer join without the rows that have a partner. -/
theorem filter_leftJoin {α : Type} (keep : Option (Row α) → Bool) {on : Row α → Row α → Bool}
    {left right : List (Row α)} (hnone : keep none = true)
    (hsome : ∀ m ∈ right, keep (some m) = false) :
    (leftJoin on left right).filter (fun pair => keep pair.2) =
      (left.filter fun o => !right.any (on o)).map fun o => (o, none) := by
  unfold leftJoin
  induction left with
  | nil => rfl
  | cons o left ih =>
    rw [List.flatMap_cons, List.filter_append, ih, List.filter_cons]
    cases hpartners : right.filter (on o) with
    | nil =>
      have hany : right.any (on o) = false := by
        simpa [List.filter_eq_nil_iff] using hpartners
      simp [hany, hnone]
    | cons m partners =>
      have hpartner (m' : Row α) (hm' : m' ∈ m :: partners) : m' ∈ right ∧ on o m' = true := by
        rw [← hpartners] at hm'
        exact List.mem_filter.1 hm'
      have hany : right.any (on o) = true :=
        List.any_eq_true.2 ⟨m, hpartner m List.mem_cons_self⟩
      have hkeep : ((m :: partners).map fun m => (o, some m)).filter
          (fun pair => keep pair.2) = [] := by
        rw [List.filter_eq_nil_iff]
        intro pair hpair
        obtain ⟨m', hm', rfl⟩ := List.mem_map.1 hpair
        simp [hsome m' (hpartner m' hm').1]
      simp only [hany, hkeep]
      rfl

/-- If every shadow row has a status, the join gives the base rows without shadow row. -/
theorem MergeQuery.eval_eq {α : Type} [DecidableEq α] {q : MergeQuery} {db : Database α}
    (h : ∀ m ∈ db.rows q.shadow, m.get statusColumn ≠ .null) :
    q.eval db =
      ((db.rows q.base).filter fun o => !(db.rows q.shadow).any (o.agree q.key)).map
          (Row.project q.columns) ++
        ((db.rows q.shadow).filter fun m =>
          (m.get statusColumn).differs (.number q.hidden.code)).map (Row.project q.columns) := by
  rw [eval, filter_leftJoin (fun m => joinedStatus m == .null) rfl, List.map_map]
  · rfl
  · exact fun m hm => beq_false_of_ne (h m hm)

/-! ### Operations and runs -/

/-- An operation on a view, with the images of its row and the columns that an update assigns. -/
inductive Event (α : Type) where
  | insert (new : Row α)
  | update (old new : Row α) (assigned : List String)
  | delete (old : Row α)
  deriving DecidableEq, Repr

namespace Event

variable {α : Type}

/-- What the trigger of an operation runs for. -/
def firing (found : Relation → List (String × String) → Bool) : Event α → Firing α
  | insert new => { old := [], new, assigned := [], found }
  | update old new assigned => { old, new, assigned, found }
  | delete old => { old, new := [], assigned := [], found }

/-- The operation on a plain table. -/
def apply [DecidableEq α] (rows : List (Row α)) : Event α → List (Row α)
  | insert new => rows ++ [new]
  | update old new _ => rows.map fun r => if r = old then new else r
  | delete old => rows.filter fun r => r ≠ old

/-- An update leaves the key as it is. -/
def KeepsKey (key : List String) : Event α → Prop
  | update old new _ => old.key key = new.key key
  | _ => True

end Event

namespace Plan

section

variable {α : Type} [DecidableEq α]

/-- The rows of the view. -/
def view (p : Plan) (db : Database α) : List (Row α) :=
  p.select.eval db

/-- The trigger of an operation. -/
def trigger (p : Plan) : Event α → Body
  | .insert _ => p.insert
  | .update _ _ _ => p.update
  | .delete _ => p.delete

/-- The database after an operation, if its trigger does not refuse it. -/
def fire (p : Plan) (found : Relation → List (String × String) → Bool) (db : Database α)
    (e : Event α) : Except Refusal (Database α) := do
  let σ ← (p.trigger e).exec p.select.key (e.firing found) { database := db, keyFound := false }
  .ok σ.database

/-- An operation is on rows with the columns of the view and on visible rows, and an update assigns
each column that it changes. -/
def Concerns (p : Plan) (db : Database α) : Event α → Prop
  | .insert new => new.map Prod.fst = p.select.columns
  | .update old new assigned =>
    old ∈ p.view db ∧ new.map Prod.fst = p.select.columns ∧
      ∀ c ∈ p.select.columns, old.get c ≠ new.get c → ∃ a ∈ assigned, sameName a c = true
  | .delete old => old ∈ p.view db

/-- The base relation is a table with the key, and nothing has been redirected. -/
structure Fresh (p : Plan) (db : Database α) : Prop where
  base : KeyedRows p.select.columns p.select.key (db.rows p.select.base)
  shadow : db.rows p.select.shadow = []

/-- The databases that operations can lead to, with those that were accepted. -/
inductive Run (p : Plan) (allowed : Event α → Prop) (start : Database α) :
    Database α → List (Event α) → Prop where
  | start : Run p allowed start start []
  | accepted {db db' : Database α} {events : List (Event α)} {e : Event α}
      {found : Relation → List (String × String) → Bool} :
      Run p allowed start db events → allowed e → p.Concerns db e → p.fire found db e = .ok db' →
        Run p allowed start db' (events ++ [e])
  | refused {db : Database α} {events : List (Event α)} {e : Event α} {refusal : Refusal}
      {found : Relation → List (String × String) → Bool} :
      Run p allowed start db events → allowed e → p.Concerns db e →
        p.fire found db e = .error refusal → Run p allowed start db events

end

end Plan
end Overlay
