import Overlay.Proofs.Redirection.Entries

/-!
# What the triggers do

For each trigger, when it is accepted and which entries it leaves in the shadow relation. An insert
looks for the key in the base relation and among the entries, an update that assigns a key column in
the base relation alone, and no other operation looks for a key at all.
-/

namespace Overlay

open Sql Text

namespace Redirection

section

variable {α : Type} [DecidableEq α] {r : Redirection} {db db' : Database α}
  {entries : List (Entry α)} {row : Row α} {status : RowStatus} {f : Firing α}
  {σ : Session α} {flag : Bool} {image : RowImage}

/-! ### Writing entries -/

theorem holds_put (h : r.Holds db entries) (hcolumns : row.map Prod.fst = r.columns)
    (hkey : row.HasKey r.key) :
    r.Holds (r.store db (Entry.put r.key entries ⟨row, status⟩))
      (Entry.put r.key entries ⟨row, status⟩) :=
  holds_store (Entry.keyedRows_put h.keyed hcolumns hkey)

variable (hr : r.Regular)

include hr

theorem Regular.agree_stamp_stamp (hkey : row.HasKey r.key) (e : Entry α) :
    (row.stamp r.columns status).agree r.key (e.row.stamp r.columns e.status) =
      decide (e.row.key r.key = row.key r.key) := by
  rw [Bool.eq_iff_iff, decide_eq_true_eq, Row.agree_iff, hr.hasKey_stamp, Row.key_stamp hr.key,
    Row.key_stamp hr.key]
  exact ⟨fun h => h.2.symm, fun h => ⟨hkey, h.symm⟩⟩

theorem Regular.upsert_eq_ok_iff (h : r.Holds db entries) :
    db.upsert r.key r.shadow (row.stamp r.columns status) = .ok db' ↔
      row.HasKey r.key ∧ db' = r.store db (Entry.put r.key entries ⟨row, status⟩) := by
  by_cases hkey : row.HasKey r.key
  · have hrows : (db.rows r.shadow).filter
        (fun other => !(row.stamp r.columns status).agree r.key other) ++
          [row.stamp r.columns status] =
        (Entry.put r.key entries ⟨row, status⟩).map fun e => e.row.stamp r.columns e.status := by
      rw [h.shadow, List.filter_map, Entry.put, List.map_append]
      simp only [Function.comp_def, hr.agree_stamp_stamp hkey, decide_not]
      rfl
    rw [Database.upsert, if_pos (hr.hasKey_stamp.2 hkey), hrows, Except.ok.injEq, eq_comm]
    exact (and_iff_right hkey).symm
  · rw [Database.upsert, if_neg (mt hr.hasKey_stamp.1 hkey)]
    simp [hkey]

theorem Regular.insert_eq_ok_iff (h : r.Holds db entries) :
    db.insert r.key r.shadow (row.stamp r.columns status) = .ok db' ↔
      row.HasKey r.key ∧ (∀ e ∈ entries, e.row.key r.key ≠ row.key r.key) ∧
        db' = r.store db (Entry.put r.key entries ⟨row, status⟩) := by
  by_cases hkey : row.HasKey r.key
  · have hany : (db.rows r.shadow).any ((row.stamp r.columns status).agree r.key) = true ↔
        ¬∀ e ∈ entries, e.row.key r.key ≠ row.key r.key := by
      rw [h.shadow]
      simp [hr.agree_stamp_stamp hkey]
    rw [Database.insert, if_pos (hr.hasKey_stamp.2 hkey)]
    by_cases hnew : ∀ e ∈ entries, e.row.key r.key ≠ row.key r.key
    · have hput : Entry.put r.key entries ⟨row, status⟩ = entries ++ [⟨row, status⟩] := by
        rw [Entry.put, List.filter_eq_self.2 (by simpa using hnew)]
      rw [if_neg (mt hany.1 (not_not.2 hnew)), hput, h.shadow, Except.ok.injEq, eq_comm, store,
        List.map_append]
      exact ((and_iff_right hkey).trans (and_iff_right hnew)).symm
    · rw [if_pos (hany.2 hnew)]
      simp [hnew]
  · rw [Database.insert, if_neg (mt hr.hasKey_stamp.1 hkey)]
    simp [hkey]

theorem Regular.exec_upsert_eq_ok_iff (h : r.Holds db entries) :
    (r.write .upsert image status).exec r.key f ⟨db, flag⟩ = .ok σ ↔
      (f.image image).HasKey r.key ∧
        σ = ⟨r.store db (Entry.put r.key entries ⟨f.image image, status⟩), flag⟩ := by
  simp only [write, Statement.exec, RowWrite.exec, bind_eq_ok_iff, hr.upsert_eq_ok_iff h,
    Except.ok.injEq]
  constructor
  · rintro ⟨_, ⟨hkey, rfl⟩, rfl⟩
    exact ⟨hkey, rfl⟩
  · rintro ⟨hkey, rfl⟩
    exact ⟨_, ⟨hkey, rfl⟩, rfl⟩

theorem Regular.exec_insert_eq_ok_iff (h : r.Holds db entries) :
    (r.write .insert image status).exec r.key f ⟨db, flag⟩ = .ok σ ↔
      (f.image image).HasKey r.key ∧
        (∀ e ∈ entries, e.row.key r.key ≠ (f.image image).key r.key) ∧
          σ = ⟨r.store db (Entry.put r.key entries ⟨f.image image, status⟩), flag⟩ := by
  simp only [write, Statement.exec, RowWrite.exec, bind_eq_ok_iff, hr.insert_eq_ok_iff h,
    Except.ok.injEq]
  constructor
  · rintro ⟨_, ⟨hkey, hnew, rfl⟩, rfl⟩
    exact ⟨hkey, hnew, rfl⟩
  · rintro ⟨hkey, hnew, rfl⟩
    exact ⟨_, ⟨hkey, hnew, rfl⟩, rfl⟩

end

/-! ### The three triggers -/

section

variable {α : Type} [DecidableEq α] {r : Redirection} {db db' : Database α}
  {entries : List (Entry α)} {row old new : Row α} {assigned : List String} {e : Event α}
  {found : Relation → List (String × String) → Bool}

theorem fire_eq_ok_iff :
    r.plan.fire found db e = .ok db' ↔
      ∃ flag, (r.plan.trigger e).exec r.key (e.firing found) ⟨db, false⟩ = .ok ⟨db', flag⟩ := by
  rw [Plan.fire, bind_eq_ok_iff]
  constructor
  · rintro ⟨⟨_, flag⟩, hexec, ⟨⟩⟩
    exact ⟨flag, hexec⟩
  · rintro ⟨flag, hexec⟩
    exact ⟨_, hexec, rfl⟩

/-- The database after a row is deleted and inserted with another key. -/
def move (r : Redirection) (db : Database α) (entries : List (Entry α)) (old new : Row α) :
    Database α :=
  let deleted := Entry.put r.key entries ⟨old, .deleted⟩
  r.store (r.store db deleted) (Entry.put r.key deleted ⟨new, .inserted⟩)

/-- No relation is found to have rows that refer to the old image. -/
def Unreferenced (r : Redirection) (found : Relation → List (String × String) → Bool) : Prop :=
  ∀ d ∈ r.dependents, found d.relation d.pairs = false

/-- Some column of the key is assigned. -/
def AssignsKey (r : Redirection) (assigned : List String) : Prop :=
  ∃ k ∈ r.key, ∃ a ∈ assigned, sameName a k = true

/-- A base row has the key of the row. -/
def BaseHasKey (r : Redirection) (db : Database α) (row : Row α) : Prop :=
  row.HasKey r.key ∧ ∃ o ∈ db.rows r.base, o.key r.key = row.key r.key

instance (r : Redirection) (db : Database α) (row : Row α) : Decidable (r.BaseHasKey db row) :=
  inferInstanceAs (Decidable (row.HasKey r.key ∧ ∃ o ∈ db.rows r.base, _))

theorem exec_findKey {f : Firing α} {flag : Bool} {rest : Body} :
    (Body.run (.findKey r.base r.key .new) rest).exec r.key f ⟨db, flag⟩ =
      rest.exec r.key f ⟨db, r.BaseHasKey db f.new⟩ := by
  have hflag : (db.rows r.base).any (f.new.agree r.key) = decide (r.BaseHasKey db f.new) := by
    rw [Bool.eq_iff_iff, List.any_eq_true, decide_eq_true_iff]
    simp only [Row.agree_iff]
    constructor
    · rintro ⟨o, ho, hkey, heq⟩
      exact ⟨hkey, o, ho, heq.symm⟩
    · rintro ⟨hkey, o, ho, heq⟩
      exact ⟨o, ho, hkey, heq.symm⟩
  rw [Body.exec_run, ← hflag]
  rfl

variable (hr : r.Regular) (h : r.Holds db entries)

include hr h

/-- An insert is accepted if neither a base row nor an entry has its key. -/
theorem Regular.fire_insert_eq_ok_iff :
    r.plan.fire found db (.insert new) = .ok db' ↔
      new.HasKey r.key ∧ ¬r.BaseHasKey db new ∧ (∀ e ∈ entries, e.row.key r.key ≠ new.key r.key) ∧
        db' = r.store db (Entry.put r.key entries ⟨new, .inserted⟩) := by
  rw [fire_eq_ok_iff]
  change (∃ flag, r.insert.exec r.key { old := [], new, assigned := [], found } ⟨db, false⟩ =
    .ok ⟨db', flag⟩) ↔ _
  rw [insert, exec_findKey]
  simp only [Body.exec_branch_done, Body.exec_run_done, Condition.holds_keyFound, decide_eq_true_eq]
  constructor
  · rintro ⟨flag, hexec⟩
    split at hexec
    · cases hexec
    · next hbase =>
      obtain ⟨hkey, hnew, hσ⟩ := (hr.exec_insert_eq_ok_iff h).1 hexec
      exact ⟨hkey, hbase, hnew, congrArg Session.database hσ⟩
  · rintro ⟨hkey, hbase, hnew, rfl⟩
    refine ⟨decide (r.BaseHasKey db new), ?_⟩
    rw [if_neg hbase]
    exact (hr.exec_insert_eq_ok_iff h).2 ⟨hkey, hnew, rfl⟩

/-- An update that assigns no column of the key is accepted. -/
theorem Regular.fire_update_eq_ok_iff_of_not_assignsKey (hassign : ¬r.AssignsKey assigned) :
    r.plan.fire found db (.update old new assigned) = .ok db' ↔
      new.HasKey r.key ∧ db' = r.store db (Entry.put r.key entries ⟨new, .updated⟩) := by
  rw [fire_eq_ok_iff]
  change (∃ flag, r.update.exec r.key { old, new, assigned, found } ⟨db, false⟩ =
    .ok ⟨db', flag⟩) ↔ _
  have hchanging : ¬(Condition.changing r.key).holds { old, new, assigned, found }
      ⟨db, false⟩ = true := by
    simpa [Condition.holds, AssignsKey] using hassign
  rw [update]
  simp only [Body.exec_branch_done, if_neg hchanging, Body.exec_run_done]
  constructor
  · rintro ⟨flag, hexec⟩
    obtain ⟨hkey, hσ⟩ := (hr.exec_upsert_eq_ok_iff h).1 hexec
    exact ⟨hkey, congrArg Session.database hσ⟩
  · rintro ⟨hkey, rfl⟩
    exact ⟨false, (hr.exec_upsert_eq_ok_iff h).2 ⟨hkey, rfl⟩⟩

/-- An update that assigns a column of the key is accepted if no base row has the new key and
nothing refers to the old one. -/
theorem Regular.fire_update_eq_ok_iff_of_assignsKey (hold : old.map Prod.fst = r.columns)
    (hassign : r.AssignsKey assigned) :
    r.plan.fire found db (.update old new assigned) = .ok db' ↔
      ¬r.BaseHasKey db new ∧ r.Unreferenced found ∧ old.HasKey r.key ∧ new.HasKey r.key ∧
        db' = r.move db entries old new := by
  rw [fire_eq_ok_iff]
  change (∃ flag, r.update.exec r.key { old, new, assigned, found } ⟨db, false⟩ =
    .ok ⟨db', flag⟩) ↔ _
  have hchanging : (Condition.changing r.key).holds { old, new, assigned, found }
      ⟨db, false⟩ = true := by
    simpa [Condition.holds, AssignsKey] using hassign
  rw [update]
  simp only [Body.exec_branch_done, if_pos hchanging, moveRow, exec_findKey, Body.exec_refuseIf,
    Condition.holds_keyFound, decide_eq_true_eq]
  constructor
  · rintro ⟨flag, hexec⟩
    split at hexec
    · cases hexec
    · next hbase =>
      rw [exec_refuseDependents_eq_ok_iff, Body.exec_run, bind_eq_ok_iff] at hexec
      obtain ⟨hfound, σ, hdelete, hinsert⟩ := hexec
      obtain ⟨hkey, rfl⟩ := (hr.exec_upsert_eq_ok_iff h).1 hdelete
      rw [Body.exec_run_done] at hinsert
      obtain ⟨hkey', hσ⟩ := (hr.exec_upsert_eq_ok_iff (holds_put h hold hkey)).1 hinsert
      exact ⟨hbase, hfound, hkey, hkey', congrArg Session.database hσ⟩
  · rintro ⟨hbase, hfound, hkey, hkey', rfl⟩
    refine ⟨decide (r.BaseHasKey db new), ?_⟩
    rw [if_neg hbase, exec_refuseDependents_eq_ok_iff, Body.exec_run, bind_eq_ok_iff]
    refine ⟨hfound, _, (hr.exec_upsert_eq_ok_iff h).2 ⟨hkey, rfl⟩, ?_⟩
    rw [Body.exec_run_done]
    exact (hr.exec_upsert_eq_ok_iff (holds_put h hold hkey)).2 ⟨hkey', rfl⟩

/-- A delete is accepted if nothing refers to its row. -/
theorem Regular.fire_delete_eq_ok_iff :
    r.plan.fire found db (.delete old) = .ok db' ↔
      r.Unreferenced found ∧ old.HasKey r.key ∧
        db' = r.store db (Entry.put r.key entries ⟨old, .deleted⟩) := by
  rw [fire_eq_ok_iff]
  change (∃ flag, r.delete.exec r.key { old, new := [], assigned := [], found } ⟨db, false⟩ =
    .ok ⟨db', flag⟩) ↔ _
  simp only [delete, exec_refuseDependents_eq_ok_iff, Body.exec_run_done]
  constructor
  · rintro ⟨flag, hfound, hexec⟩
    obtain ⟨hkey, hσ⟩ := (hr.exec_upsert_eq_ok_iff h).1 hexec
    exact ⟨hfound, hkey, congrArg Session.database hσ⟩
  · rintro ⟨hfound, hkey, rfl⟩
    exact ⟨false, hfound, (hr.exec_upsert_eq_ok_iff h).2 ⟨hkey, rfl⟩⟩

end

end Redirection

end Overlay
