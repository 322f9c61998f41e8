import Mathlib.Logic.Function.Basic
import Overlay.Plan.Basic
import Overlay.Proofs.Sequence
import Overlay.Proofs.Sql.Row

/-!
# Running triggers

A database gives rows to relations, whose names are read up to the case of ASCII letters. A trigger
runs for the two images of a row; it either ends with a changed database or is refused, and then
the database stays as it was. A relation that is written takes no row with a null key and no second
row with the same key: an insert of such a row is refused, an upsert replaces the row. Whether a
dependent relation has rows that refer to the old image is left open (`Firing.found`).
-/

namespace Overlay

open Text

/-- The name of a relation up to the case of ASCII letters. -/
def Relation.folded (r : Relation) : String × String :=
  (r.schema.toLower, r.name.toLower)

namespace Sql

/-- The rows of each relation. -/
def Database (α : Type) := String × String → List (Row α)

/-- Why a trigger has no effect. -/
inductive Refusal where
  /-- The trigger itself refuses, with a message. -/
  | raised (message : String)
  /-- A row with a null key was to be written. -/
  | nullKey
  /-- A row was to be inserted whose key another row has. -/
  | keyExists
  deriving DecidableEq, Repr

/-- What a trigger runs for: the images of its row, the columns that the operation assigns, and
which relations have rows that refer to the old image. -/
structure Firing (α : Type) where
  old : Row α
  new : Row α
  assigned : List String
  found : Relation → List (String × String) → Bool

/-- An image of the row. -/
def Firing.image {α : Type} (f : Firing α) : RowImage → Row α
  | .old => f.old
  | .new => f.new

/-- What a trigger changes while it runs: the database and its flag. -/
structure Session (α : Type) where
  database : Database α
  keyFound : Bool

namespace Database

variable {α : Type}

/-- The rows of a relation. -/
def rows (db : Database α) (r : Relation) : List (Row α) :=
  db r.folded

/-- The database with other rows in a relation. -/
def put (db : Database α) (r : Relation) (rows : List (Row α)) : Database α :=
  Function.update db r.folded rows

@[simp] theorem rows_put (db : Database α) (r : Relation) (rows : List (Row α)) :
    (db.put r rows).rows r = rows :=
  Function.update_self ..

theorem rows_put_of_ne {r r' : Relation} (h : r.folded ≠ r'.folded) (db : Database α)
    (rows : List (Row α)) : (db.put r' rows).rows r = db.rows r :=
  Function.update_of_ne h ..

variable [DecidableEq α]

/-- Adds a row to a relation. -/
def insert (db : Database α) (key : List String) (r : Relation) (row : Row α) :
    Except Refusal (Database α) :=
  if row.HasKey key then
    if (db.rows r).any (row.agree key) then .error .keyExists
    else .ok (db.put r (db.rows r ++ [row]))
  else .error .nullKey

/-- Adds a row to a relation in place of the one with its key. -/
def upsert (db : Database α) (key : List String) (r : Relation) (row : Row α) :
    Except Refusal (Database α) :=
  if row.HasKey key then
    .ok (db.put r ((db.rows r).filter (fun other => !row.agree key other) ++ [row]))
  else .error .nullKey

end Database

end Sql

/-! ### Statements, conditions and bodies -/

section

open Sql

variable {α : Type} [DecidableEq α]

/-- The database after a row is written; `key` is the primary key of its relation. -/
def RowWrite.exec (key : List String) (f : Firing α) (db : Database α) (w : RowWrite) :
    Except Refusal (Database α) :=
  let row := (f.image w.image).stamp w.columns w.status
  match w.mode with
  | .insert => db.insert key w.target row
  | .upsert => db.upsert key w.target row

/-- What a statement does. -/
def Statement.exec (key : List String) (f : Firing α) (σ : Session α) :
    Statement → Except Refusal (Session α)
  | findKey relation columns image =>
    .ok { σ with keyFound := (σ.database.rows relation).any ((f.image image).agree columns) }
  | write w => do
    let database ← w.exec key f σ.database
    .ok { σ with database }
  | refuse message => .error (.raised message)

/-- Whether a condition holds. -/
def Condition.holds (f : Firing α) (σ : Session α) : Condition → Bool
  | keyFound => σ.keyFound
  | changing columns => columns.any fun c => f.assigned.any fun a => sameName a c
  | rowsExist relation pairs => f.found relation pairs

/-- What a body does. -/
def Body.exec (key : List String) (f : Firing α) (σ : Session α) :
    Body → Except Refusal (Session α)
  | done => .ok σ
  | run statement rest => do
    let σ ← statement.exec key f σ
    rest.exec key f σ
  | guard condition yes rest => do
    let σ ← if condition.holds f σ then yes.exec key f σ else .ok σ
    rest.exec key f σ
  | branch condition yes no rest => do
    let σ ← if condition.holds f σ then yes.exec key f σ else no.exec key f σ
    rest.exec key f σ

end

/-! ### The parts of a plan -/

theorem Condition.holds_keyFound {α : Type} {f : Sql.Firing α} {σ : Sql.Session α} :
    keyFound.holds f σ = σ.keyFound := rfl

section

open Sql

variable {α : Type} [DecidableEq α] {key : List String} {f : Firing α} {σ σ' : Session α}
  {statement : Statement} {condition : Condition} {message : String} {rest yes no : Body}

theorem Body.exec_run :
    (run statement rest).exec key f σ = statement.exec key f σ >>= fun σ => rest.exec key f σ := rfl

theorem Body.exec_run_done :
    (run statement done).exec key f σ = statement.exec key f σ := by
  rw [exec_run]
  cases statement.exec key f σ <;> rfl

theorem Body.exec_branch_done :
    (branch condition yes no done).exec key f σ =
      if condition.holds f σ then yes.exec key f σ else no.exec key f σ := by
  rw [exec]
  split
  · cases yes.exec key f σ <;> rfl
  · cases no.exec key f σ <;> rfl

theorem Body.exec_refuseIf :
    (refuseIf condition message rest).exec key f σ =
      if condition.holds f σ then .error (.raised message) else rest.exec key f σ := by
  rw [refuseIf, exec]
  split <;> rfl

/-- A body goes on behind its checks of dependent tables if none of them finds a row. -/
theorem Redirection.exec_refuseDependents_eq_ok_iff {r : Redirection} {operation : Operation} :
    (r.refuseDependents operation rest).exec key f σ = .ok σ' ↔
      (∀ d ∈ r.dependents, f.found d.relation d.pairs = false) ∧
        rest.exec key f σ = .ok σ' := by
  unfold refuseDependents
  induction r.dependents with
  | nil => simp
  | cons d dependents ih =>
    have hholds : d.condition.holds f σ = f.found d.relation d.pairs := rfl
    rw [List.foldr_cons, Body.exec_refuseIf, List.forall_mem_cons, and_assoc, ← ih, hholds]
    by_cases h : f.found d.relation d.pairs = true <;> simp [h]

end

end Overlay
