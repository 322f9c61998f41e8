/-!
# Row status

Each row of a shadow table says how it relates to the row of the base table with the same key. The
status is kept as a number in the column `statusColumn`. A base row without shadow row stands for
itself.
-/

namespace Overlay

/-- How a shadow row relates to the base row with the same key. -/
inductive RowStatus where
  /-- There is no base row that counts: the shadow row is new. -/
  | inserted
  /-- The shadow row replaces the base row. -/
  | updated
  /-- There is no row with this key any more. -/
  | deleted
  deriving DecidableEq, Repr, Inhabited

/-- The name of the column that holds the status of a shadow row. -/
def statusColumn : String := "ROW__STATUS"

namespace RowStatus

/-- Every status. -/
def all : List RowStatus := [inserted, updated, deleted]

/-- The number that stands for a status. -/
def code : RowStatus → Nat
  | inserted => 1
  | updated => 2
  | deleted => 3

/-- A status as it is written in generated text. -/
def text (s : RowStatus) : String := toString s.code

theorem code_injective {a b : RowStatus} (h : a.code = b.code) : a = b := by
  cases a <;> cases b <;> simp_all [code]

end RowStatus
end Overlay
