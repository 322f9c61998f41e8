import Overlay.Layer.Basic
import Overlay.Proofs.Sql.Plan

/-!
# What a shadow table holds

The rows of a shadow table are images with a status (`Entry`). The view shows the base rows whose
key no entry has and the images of the entries that are not deleted (`merge`); writing an entry
takes the row with its key out of the view and, unless it is a deletion, puts its image into the
view (`merge_put`).
-/

namespace Overlay

open Sql Text

/-- A row of a shadow table: an image and its status. -/
structure Entry (α : Type) where
  row : Row α
  status : RowStatus
  deriving DecidableEq, Repr

namespace Entry

section

variable {α : Type} {key columns : List String} {entries : List (Entry α)} {r : Row α}

/-- The images of the entries that are not deleted. -/
def visible (entries : List (Entry α)) : List (Row α) :=
  (entries.filter fun e => e.status ≠ .deleted).map Entry.row

theorem mem_visible : r ∈ visible entries ↔ ∃ e ∈ entries, e.status ≠ .deleted ∧ e.row = r := by
  simp [visible, and_assoc]

theorem keyedRows_visible (h : KeyedRows columns key (entries.map row)) :
    KeyedRows columns key (visible entries) :=
  h.sublist (List.filter_sublist.map _)

end

section

variable {α : Type} [DecidableEq α] {key columns : List String} {base : List (Row α)}
  {entries : List (Entry α)} {e : Entry α} {r : Row α}

/-- The rows of the base table without entry, and the images of visible entries. -/
def merge (key : List String) (base : List (Row α)) (entries : List (Entry α)) : List (Row α) :=
  (base.filter fun o => ∀ e ∈ entries, o.key key ≠ e.row.key key) ++ visible entries

/-- The entries with a further one in place of that with its key. -/
def put (key : List String) (entries : List (Entry α)) (e : Entry α) : List (Entry α) :=
  (entries.filter fun e' => e'.row.key key ≠ e.row.key key) ++ [e]

theorem visible_put :
    visible (put key entries e) =
      ((visible entries).filter fun r => r.key key ≠ e.row.key key) ++
        if e.status = .deleted then [] else [e.row] := by
  rw [visible, put, List.filter_append, List.map_append]
  congr 1
  · simp only [visible, List.filter_map, List.filter_filter, Function.comp_def, Bool.and_comm]
  · by_cases h : e.status = .deleted <;> simp [h]

/-- Writing an entry takes the row with its key out and puts its image in. -/
theorem merge_put :
    merge key base (put key entries e) =
      ((merge key base entries).filter fun r => r.key key ≠ e.row.key key) ++
        if e.status = .deleted then [] else [e.row] := by
  have hbase : (base.filter fun o => ∀ e' ∈ put key entries e, o.key key ≠ e'.row.key key) =
      (base.filter fun o => ∀ e' ∈ entries, o.key key ≠ e'.row.key key).filter
        fun r => r.key key ≠ e.row.key key := by
    rw [List.filter_filter]
    refine List.filter_congr fun o _ => ?_
    rw [← Bool.decide_and, decide_eq_decide]
    simp only [put, List.forall_mem_append, List.mem_filter, decide_eq_true_eq,
      List.forall_mem_singleton]
    constructor
    · rintro ⟨hother, hne⟩
      refine ⟨hne, fun e' he' => ?_⟩
      by_cases hkey : e'.row.key key = e.row.key key
      · rw [hkey]
        exact hne
      · exact hother e' ⟨he', hkey⟩
    · rintro ⟨hne, hall⟩
      exact ⟨fun e' he' => hall e' he'.1, hne⟩
  rw [merge, visible_put, hbase, merge, List.filter_append, List.append_assoc]

/-- The view is a table with the key. -/
theorem keyedRows_merge (hbase : KeyedRows columns key base)
    (hentries : KeyedRows columns key (entries.map row)) :
    KeyedRows columns key (merge key base entries) := by
  refine (hbase.sublist List.filter_sublist).append (keyedRows_visible hentries) fun o ho r hr => ?_
  obtain ⟨e, he, -, rfl⟩ := mem_visible.1 hr
  exact of_decide_eq_true (List.mem_filter.1 ho).2 e he

theorem keyedRows_put (h : KeyedRows columns key (entries.map row))
    (hcolumns : e.row.map Prod.fst = columns) (hkey : e.row.HasKey key) :
    KeyedRows columns key ((put key entries e).map row) := by
  rw [put, List.map_append]
  refine (h.sublist (List.filter_sublist.map _)).append ⟨?_, ?_, ?_⟩ fun r hr r' hr' => ?_
  · simpa using hcolumns
  · simpa using hkey
  · simp
  · obtain ⟨e', he', rfl⟩ := List.mem_map.1 hr
    rw [List.map_singleton, List.mem_singleton] at hr'
    rw [hr']
    exact of_decide_eq_true (List.mem_filter.1 he').2

end

end Entry

/-! ### Shadow relations -/

/-- A redirection of a table whose columns are pairwise different and none of which is the status
column. -/
structure Redirection.Regular (r : Redirection) : Prop where
  distinct : r.columns.Pairwise fun c c' => sameName c c' = false
  status : ∀ c ∈ r.columns, sameName c statusColumn = false
  key : ∀ k ∈ r.key, ∃ c ∈ r.columns, sameName c k = true
  separate : r.base.folded ≠ r.shadow.folded

/-- The shadow relation holds the entries, which have keys. -/
structure Redirection.Holds {α : Type} (r : Redirection) (db : Database α)
    (entries : List (Entry α)) : Prop where
  shadow : db.rows r.shadow = entries.map fun e => e.row.stamp r.columns e.status
  keyed : KeyedRows r.columns r.key (entries.map Entry.row)

/-- The database with other entries in the shadow relation. -/
def Redirection.store {α : Type} (r : Redirection) (db : Database α) (entries : List (Entry α)) :
    Database α :=
  db.put r.shadow (entries.map fun e => e.row.stamp r.columns e.status)

namespace Redirection

variable {α : Type} {r : Redirection} {db : Database α}
  {entries : List (Entry α)} {e : Entry α} {row : Row α} {status : RowStatus}

theorem holds_store (h : KeyedRows r.columns r.key (entries.map Entry.row)) :
    r.Holds (r.store db entries) entries :=
  ⟨Database.rows_put .., h⟩

variable (hr : r.Regular)

include hr

theorem Regular.base_store : (r.store db entries).rows r.base = db.rows r.base :=
  Database.rows_put_of_ne hr.separate ..

theorem Regular.project_eq_self (h : row.map Prod.fst = r.columns) : row.project r.columns = row :=
  Row.project_eq_self h hr.distinct

theorem Regular.get_stamp_statusColumn :
    (row.stamp r.columns status).get statusColumn = .number status.code :=
  Row.get_stamp_statusColumn hr.status

theorem Regular.hasKey_stamp : (row.stamp r.columns status).HasKey r.key ↔ row.HasKey r.key :=
  Row.HasKey.congr (Row.key_stamp hr.key)

variable [DecidableEq α]

theorem Regular.agree_stamp :
    row.agree r.key (e.row.stamp r.columns e.status) = row.agree r.key e.row := by
  rw [Bool.eq_iff_iff, Row.agree_iff, Row.agree_iff, Row.key_stamp hr.key]

/-- The base rows without shadow row are those whose key no entry has. -/
theorem Regular.map_filter_base (hbase : KeyedRows r.columns r.key (db.rows r.base))
    (h : r.Holds db entries) :
    ((db.rows r.base).filter fun o => !(db.rows r.shadow).any (o.agree r.key)).map
        (Row.project r.columns) =
      (db.rows r.base).filter fun o => ∀ e ∈ entries, o.key r.key ≠ e.row.key r.key := by
  have hfilter : ((db.rows r.base).filter fun o => !(db.rows r.shadow).any (o.agree r.key)) =
      (db.rows r.base).filter fun o => ∀ e ∈ entries, o.key r.key ≠ e.row.key r.key := by
    refine List.filter_congr fun o ho => ?_
    rw [Bool.eq_iff_iff, h.shadow]
    simp [hr.agree_stamp, Row.agree_iff, hbase.hasKey o ho]
  rw [hfilter]
  refine (List.map_congr_left fun o ho => ?_).trans (List.map_id _)
  exact hr.project_eq_self (hbase.columns o (List.mem_of_mem_filter ho))

/-- The shadow rows that are not marked as deleted are the visible entries. -/
theorem Regular.map_filter_shadow (h : r.Holds db entries) :
    ((db.rows r.shadow).filter fun m =>
        (m.get statusColumn).differs (.number RowStatus.deleted.code)).map (Row.project r.columns) =
      Entry.visible entries := by
  have hstatus (e : Entry α) : ((e.row.stamp r.columns e.status).get statusColumn).differs
      (.number RowStatus.deleted.code) = decide (e.status ≠ .deleted) := by
    rw [hr.get_stamp_statusColumn, Value.differs_number, decide_eq_decide]
    exact not_congr ⟨RowStatus.code_injective, congrArg RowStatus.code⟩
  rw [h.shadow, List.filter_map, List.map_map, Entry.visible]
  simp only [Function.comp_def, hstatus, Row.project_stamp]
  refine List.map_congr_left fun e he => ?_
  exact hr.project_eq_self (h.keyed.columns _ (List.mem_map_of_mem (List.mem_of_mem_filter he)))

/-- The query of the view merges the base relation with the entries. -/
theorem Regular.view_eq_merge (hbase : KeyedRows r.columns r.key (db.rows r.base))
    (h : r.Holds db entries) :
    r.plan.view db = Entry.merge r.key (db.rows r.base) entries := by
  have hnull (m : Row α) (hm : m ∈ db.rows r.shadow) : m.get statusColumn ≠ .null := by
    rw [h.shadow] at hm
    obtain ⟨e, -, rfl⟩ := List.mem_map.1 hm
    simp [hr.get_stamp_statusColumn]
  refine (MergeQuery.eval_eq hnull).trans ?_
  rw [Entry.merge, ← hr.map_filter_base hbase h, ← hr.map_filter_shadow h]
  rfl

end Redirection

end Overlay
