import Mathlib.Data.List.Nodup
import Overlay.RowStatus
import Overlay.Text.Case

/-!
# Rows

A row gives values to columns. A column is looked up by its name up to the case of ASCII letters,
and a comparison with a null value is neither true nor false. Here is what a trigger does with rows:
it compares their keys (`Row.agree`) and builds a shadow row of an image and a status
(`Row.stamp`).
-/

namespace Overlay.Sql

open Text

/-- A value of a column; `α` are the values besides numbers. -/
inductive Value (α : Type) where
  | null
  | number (n : Nat)
  | other (a : α)
  deriving DecidableEq, Repr

/-- A row: its columns, in order, with their values. -/
abbrev Row (α : Type) := List (String × Value α)

section

variable {α : Type} [DecidableEq α]

/-- Whether the comparison `a = b` is true. -/
def Value.equals (a b : Value α) : Bool :=
  a != .null && a == b

/-- Whether the comparison `a <> b` is true. -/
def Value.differs (a b : Value α) : Bool :=
  a != .null && b != .null && a != b

theorem Value.differs_number {m n : Nat} :
    (number m : Value α).differs (number n) = decide (m ≠ n) := by
  rw [Bool.eq_iff_iff]
  simp [differs]

namespace Row

/-- The value of the first column with this name. -/
def get (r : Row α) (column : String) : Value α :=
  ((r.find? fun cell => sameName cell.1 column).map Prod.snd).getD .null

/-- The values of the given columns. -/
def project (columns : List String) (r : Row α) : Row α :=
  columns.map fun c => (c, r.get c)

/-- The values of the columns of a key. -/
def key (key : List String) (r : Row α) : List (Value α) :=
  key.map r.get

/-- Whether the rows have equal values in each column of a key. -/
def agree (key : List String) (a b : Row α) : Bool :=
  key.all fun k => (a.get k).equals (b.get k)

/-- No column of the key is null. -/
def HasKey (key : List String) (r : Row α) : Prop :=
  ∀ k ∈ key, r.get k ≠ .null

instance (key : List String) (r : Row α) : Decidable (r.HasKey key) :=
  List.decidableBAll _ key

/-- The row of a shadow table for an image and a status. -/
def stamp (columns : List String) (r : Row α) (status : RowStatus) : Row α :=
  r.project columns ++ [(statusColumn, .number status.code)]

end Row

end

/-! ### Columns -/

section

variable {α : Type} {r a b : Row α} {c c' : String} {columns key : List String}
  {status : RowStatus} {cell : String × Value α}

namespace Row

theorem get_congr (h : sameName c c' = true) : r.get c = r.get c' := by
  have hlower : c.toLower = c'.toLower := sameName_iff.1 h
  simp only [get, sameName, hlower]

theorem get_append_of_get (h : ∃ cell ∈ a, sameName cell.1 c = true) : (a ++ b).get c = a.get c := by
  obtain ⟨cell, hcell⟩ := Option.isSome_iff_exists.1 (List.find?_isSome.2 h)
  simp [get, List.find?_append, hcell]

theorem get_append_of_forall (h : ∀ cell ∈ a, sameName cell.1 c = false) :
    (a ++ b).get c = b.get c := by
  have hnone : a.find? (fun cell => sameName cell.1 c) = none := by simpa using h
  simp [get, List.find?_append, hnone]

theorem get_project (h : ∃ c' ∈ columns, sameName c' c = true) :
    (r.project columns).get c = r.get c := by
  obtain ⟨c', hc'⟩ := Option.isSome_iff_exists.1 (List.find?_isSome.2 h)
  have hsame := List.find?_some hc'
  rw [get, project, List.find?_map]
  change (Option.map Prod.snd (Option.map _ (columns.find? fun c' => sameName c' c))).getD _ = _
  rw [hc']
  exact get_congr hsame

/-- In a row whose columns are pairwise different, each column has its own value. -/
theorem get_of_mem (h : (r.map Prod.fst).Pairwise fun c c' => sameName c c' = false)
    (hcell : cell ∈ r) : r.get cell.1 = cell.2 := by
  induction r with
  | nil => simp at hcell
  | cons first r ih =>
    obtain ⟨hfirst, hr⟩ := List.pairwise_cons.1 h
    obtain rfl | hcell := List.mem_cons.1 hcell
    · simp [get, sameName_refl]
    · have hne : sameName first.1 cell.1 = false := hfirst _ (List.mem_map_of_mem hcell)
      rw [← ih hr hcell, ← List.singleton_append, get_append_of_forall (by simpa using hne)]

theorem project_eq_self (h : r.map Prod.fst = columns)
    (hdistinct : columns.Pairwise fun c c' => sameName c c' = false) : r.project columns = r := by
  subst h
  rw [project, List.map_map]
  refine (List.map_congr_left fun cell hcell => ?_).trans (List.map_id r)
  exact Prod.ext rfl (get_of_mem hdistinct hcell)

theorem get_stamp (h : ∃ c' ∈ columns, sameName c' c = true) :
    (r.stamp columns status).get c = r.get c := by
  rw [stamp, get_append_of_get, get_project h]
  obtain ⟨c', hc', hsame⟩ := h
  exact ⟨(c', r.get c'), List.mem_map_of_mem hc', hsame⟩

theorem get_stamp_statusColumn (h : ∀ c ∈ columns, sameName c statusColumn = false) :
    (r.stamp columns status).get statusColumn = .number status.code := by
  rw [stamp, get_append_of_forall]
  · simp [get, sameName_refl]
  · rintro cell hcell
    obtain ⟨c, hc, rfl⟩ := List.mem_map.1 hcell
    exact h c hc

theorem project_stamp : (r.stamp columns status).project columns = r.project columns :=
  List.map_congr_left fun c hc => congrArg (c, ·) (get_stamp ⟨c, hc, sameName_refl c⟩)

theorem key_stamp (h : ∀ k ∈ key, ∃ c ∈ columns, sameName c k = true) :
    (r.stamp columns status).key key = r.key key :=
  List.map_congr_left fun k hk => get_stamp (h k hk)

theorem HasKey.congr (h : a.key key = b.key key) : a.HasKey key ↔ b.HasKey key := by
  have hget : ∀ k ∈ key, a.get k = b.get k := List.map_inj_left.1 h
  exact forall₂_congr fun k hk => by rw [hget k hk]

end Row

end

/-! ### Keys -/

section

variable {α : Type} [DecidableEq α] {a b : Row α} {k : List String}

namespace Row

/-- Two rows agree on a key if it is not null and the same in both. -/
theorem agree_iff : a.agree k b = true ↔ a.HasKey k ∧ a.key k = b.key k := by
  simp only [agree, Value.equals, List.all_eq_true, Bool.and_eq_true, bne_iff_ne, beq_iff_eq,
    HasKey, key, List.map_inj_left]
  exact ⟨fun h => ⟨fun c hc => (h c hc).1, fun c hc => (h c hc).2⟩,
    fun h c hc => ⟨h.1 c hc, h.2 c hc⟩⟩

end Row

end

/-! ### Tables -/

/-- The rows of a table: they have its columns, and a key that is not null and that no other row
has. -/
structure KeyedRows {α : Type} (columns key : List String) (rows : List (Row α)) : Prop where
  columns : ∀ r ∈ rows, r.map Prod.fst = columns
  hasKey : ∀ r ∈ rows, r.HasKey key
  unique : (rows.map (Row.key key)).Nodup

namespace KeyedRows

variable {α : Type} {columns key : List String} {rows rows' : List (Row α)} {r r' : Row α}

theorem nil : KeyedRows columns key ([] : List (Row α)) :=
  ⟨by simp, by simp, by simp⟩

theorem sublist (h : KeyedRows columns key rows) (hsub : rows'.Sublist rows) :
    KeyedRows columns key rows' :=
  ⟨fun r hr => h.columns r (hsub.mem hr), fun r hr => h.hasKey r (hsub.mem hr),
    h.unique.sublist (hsub.map _)⟩

theorem append (h : KeyedRows columns key rows) (h' : KeyedRows columns key rows')
    (hdisjoint : ∀ r ∈ rows, ∀ r' ∈ rows', r.key key ≠ r'.key key) :
    KeyedRows columns key (rows ++ rows') := by
  refine ⟨List.forall_mem_append.2 ⟨h.columns, h'.columns⟩,
    List.forall_mem_append.2 ⟨h.hasKey, h'.hasKey⟩, ?_⟩
  rw [List.map_append, List.nodup_append]
  refine ⟨h.unique, h'.unique, fun k hk k' hk' => ?_⟩
  obtain ⟨r, hr, rfl⟩ := List.mem_map.1 hk
  obtain ⟨r', hr', rfl⟩ := List.mem_map.1 hk'
  exact hdisjoint r hr r' hr'

theorem eq_of_key (h : KeyedRows columns key rows) (hr : r ∈ rows) (hr' : r' ∈ rows)
    (hkey : r.key key = r'.key key) : r = r' :=
  List.inj_on_of_nodup_map h.unique hr hr' hkey

theorem nodup (h : KeyedRows columns key rows) : rows.Nodup :=
  h.unique.of_map _

end KeyedRows

end Overlay.Sql
