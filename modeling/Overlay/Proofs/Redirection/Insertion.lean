import Overlay.Proofs.Redirection.Run

/-!
# Inserts

An insert looks for its key in the base relation and in the shadow relation, and in both also rows
that the view does not show any more count: a base row with a shadow row, and a shadow row that is
marked as deleted. A key that the view has once shown is therefore never free again, and an insert
is refused exactly for these keys and for null keys (`insert_refused_iff`). The trigger is the one
that its text is read as (`Schema.read_of_layer`).
-/

namespace Overlay

open Sql Text

/-! ### Entries -/

namespace Entry

variable {α : Type} [DecidableEq α] {key columns : List String} {base : List (Row α)}
  {entries : List (Entry α)} {e : Entry α} {k : List (Value α)}

theorem exists_key_put :
    (∃ e' ∈ put key entries e, e'.row.key key = k) ↔
      (∃ e' ∈ entries, e'.row.key key = k) ∨ e.row.key key = k := by
  simp only [put, List.mem_append, List.mem_filter, List.mem_singleton, decide_eq_true_eq]
  constructor
  · rintro ⟨e', he' | rfl, rfl⟩
    · exact .inl ⟨e', he'.1, rfl⟩
    · exact .inr rfl
  · intro h
    by_cases hkey : e.row.key key = k
    · exact ⟨e, .inr rfl, hkey⟩
    · obtain ⟨e', he', rfl⟩ := h.resolve_right hkey
      exact ⟨e', .inl ⟨he', Ne.symm hkey⟩, rfl⟩

/-- A key of a base row or an entry is the key of a row of the view or of a deleted entry. -/
theorem exists_key_iff :
    ((∃ o ∈ base, o.key key = k) ∨ ∃ e ∈ entries, e.row.key key = k) ↔
      (∃ o ∈ merge key base entries, o.key key = k) ∨
        ∃ e ∈ entries, e.status = .deleted ∧ e.row.key key = k := by
  constructor
  · intro h
    by_cases hentry : ∃ e ∈ entries, e.row.key key = k
    · obtain ⟨e, he, hkey⟩ := hentry
      by_cases hdeleted : e.status = .deleted
      · exact .inr ⟨e, he, hdeleted, hkey⟩
      · exact .inl ⟨e.row, List.mem_append_right _ (mem_visible.2 ⟨e, he, hdeleted, rfl⟩), hkey⟩
    · obtain ⟨o, ho, rfl⟩ := h.resolve_right hentry
      have hfree : ∀ e ∈ entries, o.key key ≠ e.row.key key :=
        fun e he heq => hentry ⟨e, he, heq.symm⟩
      exact .inl ⟨o, List.mem_append_left _ (List.mem_filter.2 ⟨ho, decide_eq_true hfree⟩), rfl⟩
  · rintro (⟨o, ho, hkey⟩ | ⟨e, he, -, hkey⟩)
    · rcases List.mem_append.1 ho with hmem | hmem
      · exact .inl ⟨o, List.mem_of_mem_filter hmem, hkey⟩
      · obtain ⟨e, he, -, rfl⟩ := mem_visible.1 hmem
        exact .inr ⟨e, he, hkey⟩
    · exact .inr ⟨e, he, hkey⟩

/-- The key of a deleted entry is the key of no row of the view. -/
theorem key_ne_of_deleted (h : KeyedRows columns key (entries.map row)) (he : e ∈ entries)
    (hdeleted : e.status = .deleted) {o : Row α} (ho : o ∈ merge key base entries) :
    o.key key ≠ e.row.key key := by
  rcases List.mem_append.1 ho with hmem | hmem
  · exact of_decide_eq_true (List.mem_filter.1 hmem).2 e he
  · obtain ⟨e', he', hvisible, rfl⟩ := mem_visible.1 hmem
    intro hkey
    have hunique := h.unique
    rw [List.map_map] at hunique
    obtain rfl := List.inj_on_of_nodup_map hunique he' he hkey
    exact hvisible hdeleted

end Entry

/-! ### Keys -/

/-- The row that an operation writes to the view, if it does. -/
def Event.new? {α : Type} : Event α → Option (Row α)
  | insert new => some new
  | update _ new _ => some new
  | delete _ => none

namespace Plan

section

variable {α : Type} [DecidableEq α]

/-- The view has a row with the key of this row. -/
def Shows (p : Plan) (db : Database α) (row : Row α) : Prop :=
  ∃ o ∈ p.view db, o.key p.select.key = row.key p.select.key

instance (p : Plan) (db : Database α) (row : Row α) : Decidable (p.Shows db row) :=
  inferInstanceAs (Decidable (∃ o ∈ p.view db, _))

/-- The shadow relation has a row with the key of this row that is marked as deleted. -/
def MarksDeleted (p : Plan) (db : Database α) (row : Row α) : Prop :=
  ∃ m ∈ db.rows p.select.shadow, m.get statusColumn = .number RowStatus.deleted.code ∧
    m.key p.select.key = row.key p.select.key

/-- In the course of the run the view had a row with the key of this row. -/
def HasShown (p : Plan) (allowed : Event α → Prop) (start db : Database α) (events : List (Event α))
    (row : Row α) : Prop :=
  ∃ mid before later, p.Run allowed start mid before ∧ p.Run allowed mid db later ∧
    events = before ++ later ∧ p.Shows mid row

end

/-- A run can go on where another ended. -/
theorem Run.trans {α : Type} [DecidableEq α] {p : Plan} {allowed : Event α → Prop}
    {start mid db : Database α} {before later : List (Event α)} (h : p.Run allowed start mid before)
    (h' : p.Run allowed mid db later) : p.Run allowed start db (before ++ later) := by
  induction h' with
  | start => simpa using h
  | accepted _ hallowed he hfire ih =>
    rw [← List.append_assoc]
    exact .accepted ih hallowed he hfire
  | refused _ hallowed he hfire ih => exact .refused ih hallowed he hfire

end Plan

namespace Redirection

/-- A row of the base relation or of the shadow relation has this key. -/
def Occupied {α : Type} (r : Redirection) (db : Database α) (k : List (Value α)) : Prop :=
  (∃ o ∈ db.rows r.base, o.key r.key = k) ∨ ∃ m ∈ db.rows r.shadow, m.key r.key = k

section

variable {α : Type} {r : Redirection} {db : Database α} {entries : List (Entry α)} {row : Row α}
  {k : List (Value α)}

theorem Regular.occupied_iff (hr : r.Regular) (h : r.Holds db entries) :
    r.Occupied db k ↔
      (∃ o ∈ db.rows r.base, o.key r.key = k) ∨ ∃ e ∈ entries, e.row.key r.key = k := by
  have hkey (e : Entry α) : (e.row.stamp r.columns e.status).key r.key = e.row.key r.key :=
    Row.key_stamp hr.key
  simp [Occupied, h.shadow, hkey]

theorem Regular.marksDeleted_iff (hr : r.Regular) (h : r.Holds db entries) :
    r.plan.MarksDeleted db row ↔
      ∃ e ∈ entries, e.status = .deleted ∧ e.row.key r.key = row.key r.key := by
  have hkey (e : Entry α) : (e.row.stamp r.columns e.status).key r.key = e.row.key r.key :=
    Row.key_stamp hr.key
  have hstatus (e : Entry α) : (e.row.stamp r.columns e.status).get statusColumn =
      .number RowStatus.deleted.code ↔ e.status = .deleted := by
    rw [hr.get_stamp_statusColumn, Value.number.injEq]
    exact ⟨RowStatus.code_injective, congrArg RowStatus.code⟩
  change (∃ m ∈ db.rows r.shadow, m.get statusColumn = .number RowStatus.deleted.code ∧
    m.key r.key = row.key r.key) ↔ _
  simp [h.shadow, hkey, hstatus]

end

section

variable {α : Type} [DecidableEq α] {r : Redirection} {db db' : Database α}
  {entries : List (Entry α)} {row new : Row α} {status : RowStatus} {k : List (Value α)}
  {e : Event α} {found : Relation → List (String × String) → Bool} (hr : r.Regular)

include hr

theorem Regular.occupied_store (h : r.Holds db entries) (hcolumns : row.map Prod.fst = r.columns)
    (hkey : row.HasKey r.key) :
    r.Occupied (r.store db (Entry.put r.key entries ⟨row, status⟩)) k ↔
      r.Occupied db k ∨ row.key r.key = k := by
  rw [hr.occupied_iff (holds_put h hcolumns hkey), hr.occupied_iff h, hr.base_store,
    Entry.exists_key_put, or_assoc]

/-- An insert is accepted if its key is not null and not in use. -/
theorem Regular.exists_fire_insert_iff (h : r.Holds db entries) :
    (∃ db', r.plan.fire found db (.insert new) = .ok db') ↔
      new.HasKey r.key ∧ ¬r.Occupied db (new.key r.key) := by
  simp only [hr.fire_insert_eq_ok_iff h, hr.occupied_iff h, not_or, not_exists, not_and]
  constructor
  · rintro ⟨db', hkey, hnotBase, hnew, -⟩
    exact ⟨hkey, fun o ho heq => hnotBase ⟨hkey, o, ho, heq⟩, hnew⟩
  · rintro ⟨hkey, hnotBase, hnew⟩
    refine ⟨_, hkey, ?_, hnew, rfl⟩
    rintro ⟨-, o, ho, heq⟩
    exact hnotBase o ho heq

variable (hbase : KeyedRows r.columns r.key (db.rows r.base)) (h : r.Holds db entries)

include hbase h

/-- A key is in use if the view shows it or a deletion has left it. -/
theorem Regular.occupied_iff_shows_or_marksDeleted :
    r.Occupied db (row.key r.key) ↔ r.plan.Shows db row ∨ r.plan.MarksDeleted db row := by
  rw [hr.occupied_iff h, Entry.exists_key_iff, hr.marksDeleted_iff h, Plan.Shows,
    hr.view_eq_merge hbase h]
  rfl

theorem Regular.not_shows_of_marksDeleted (hmarked : r.plan.MarksDeleted db row) :
    ¬r.plan.Shows db row := by
  rintro ⟨o, ho, hkey⟩
  obtain ⟨e, he, hdeleted, hkey'⟩ := (hr.marksDeleted_iff h).1 hmarked
  rw [hr.view_eq_merge hbase h] at ho
  exact Entry.key_ne_of_deleted h.keyed he hdeleted ho (hkey.trans hkey'.symm)

theorem Regular.occupied_of_mem_view {o : Row α} (ho : o ∈ r.plan.view db) :
    r.Occupied db (o.key r.key) :=
  (hr.occupied_iff_shows_or_marksDeleted hbase h).2 (.inl ⟨o, ho, rfl⟩)

/-! ### Steps -/

/-- The row that an accepted operation writes is visible behind it. -/
theorem Regular.mem_view_of_fire (he : r.plan.Concerns db e) (hnew : e.new? = some new)
    (hfire : r.plan.fire found db e = .ok db') : new ∈ r.plan.view db' := by
  have hview := hr.keyedRows_view hbase h
  cases e with
  | insert row =>
    obtain rfl := Option.some.inj hnew
    obtain ⟨hkey, -, -, rfl⟩ := (hr.fire_insert_eq_ok_iff h).1 hfire
    rw [hr.view_store_put hbase h he hkey]
    simp
  | delete old => cases hnew
  | update old row assigned =>
    obtain rfl := Option.some.inj hnew
    obtain ⟨hold, hcolumns, -⟩ := he
    by_cases hassign : r.AssignsKey assigned
    · obtain ⟨-, -, hkey, hkey', rfl⟩ :=
        (hr.fire_update_eq_ok_iff_of_assignsKey h (hview.columns old hold) hassign).1 hfire
      rw [hr.view_move hbase h (hview.columns old hold) hkey hcolumns hkey']
      simp
    · obtain ⟨hkey, rfl⟩ := (hr.fire_update_eq_ok_iff_of_not_assignsKey h hassign).1 hfire
      rw [hr.view_store_put hbase h hcolumns hkey]
      simp

/-- An accepted operation puts the key of the row that it writes to use, and takes none out. -/
theorem Regular.occupied_fire_iff (he : r.plan.Concerns db e)
    (hfire : r.plan.fire found db e = .ok db') :
    r.Occupied db' k ↔ r.Occupied db k ∨ ∃ new, e.new? = some new ∧ new.key r.key = k := by
  have hview := hr.keyedRows_view hbase h
  -- A row that is visible has a key that is in use, so that deleting it changes nothing.
  have hvisible {old : Row α} (hold : old ∈ r.plan.view db) :
      r.Occupied db k ∨ old.key r.key = k ↔ r.Occupied db k := by
    rw [or_iff_left_iff_imp]
    rintro rfl
    exact hr.occupied_of_mem_view hbase h hold
  cases e with
  | insert row =>
    obtain ⟨hkey, -, -, rfl⟩ := (hr.fire_insert_eq_ok_iff h).1 hfire
    rw [hr.occupied_store h he hkey]
    simp [Event.new?]
  | delete old =>
    obtain ⟨-, hkey, rfl⟩ := (hr.fire_delete_eq_ok_iff h).1 hfire
    rw [hr.occupied_store h (hview.columns old he) hkey, hvisible he]
    simp [Event.new?]
  | update old row assigned =>
    obtain ⟨hold, hcolumns, -⟩ := he
    by_cases hassign : r.AssignsKey assigned
    · obtain ⟨-, -, hkey, hkey', rfl⟩ :=
        (hr.fire_update_eq_ok_iff_of_assignsKey h (hview.columns old hold) hassign).1 hfire
      rw [move, hr.occupied_store (holds_put h (hview.columns old hold) hkey) hcolumns hkey',
        hr.occupied_store h (hview.columns old hold) hkey, hvisible hold]
      simp [Event.new?]
    · obtain ⟨hkey, rfl⟩ := (hr.fire_update_eq_ok_iff_of_not_assignsKey h hassign).1 hfire
      rw [hr.occupied_store h hcolumns hkey]
      simp [Event.new?]

end

/-! ### Runs -/

section

variable {α : Type} [DecidableEq α] {r : Redirection} {start mid db : Database α}
  {before later events : List (Event α)} {allowed : Event α → Prop} {row : Row α}
  {k : List (Value α)} (hr : r.Regular) (hfresh : r.plan.Fresh start)

include hr hfresh

/-- A key that is in use stays so. -/
theorem Regular.occupied_of_run (hrun : r.plan.Run allowed start mid before)
    (hlater : r.plan.Run allowed mid db later) (hmid : r.Occupied mid k) : r.Occupied db k := by
  induction hlater with
  | start => exact hmid
  | accepted hlater _ he hfire ih =>
    have hreached := hrun.trans hlater
    obtain ⟨-, entries, hholds⟩ := hr.exists_holds_of_run hfresh hreached
    have hbase := hr.keyedRows_base_of_run hfresh hreached
    exact (hr.occupied_fire_iff hbase hholds he hfire).2 (.inl ih)
  | refused _ _ _ _ ih => exact ih

/-- The keys in use are those that the view has shown. -/
theorem Regular.occupied_iff_hasShown (hrun : r.plan.Run allowed start db events) :
    r.Occupied db (row.key r.key) ↔ r.plan.HasShown allowed start db events row := by
  constructor
  · intro hoccupied
    induction hrun with
    | start =>
      refine ⟨start, [], [], .start, .start, rfl, ?_⟩
      have hholds : r.Holds start [] := ⟨hfresh.shadow, .nil⟩
      rw [hr.occupied_iff_shows_or_marksDeleted hfresh.base hholds,
        hr.marksDeleted_iff hholds] at hoccupied
      simpa using hoccupied
    | @accepted db db' events e found hrun hallowed he hfire ih =>
      obtain ⟨-, entries, hholds⟩ := hr.exists_holds_of_run hfresh hrun
      have hbase := hr.keyedRows_base_of_run hfresh hrun
      rcases (hr.occupied_fire_iff hbase hholds he hfire).1 hoccupied with hold | ⟨new, hnew, hkey⟩
      · obtain ⟨mid, before, later, hbefore, hlater, rfl, hshows⟩ := ih hold
        exact ⟨mid, before, later ++ [e], hbefore, .accepted hlater hallowed he hfire,
          List.append_assoc .., hshows⟩
      · exact ⟨db', events ++ [e], [], .accepted hrun hallowed he hfire, .start,
          (List.append_nil _).symm, new, hr.mem_view_of_fire hbase hholds he hnew hfire, hkey⟩
    | refused _ hallowed he hfire ih =>
      obtain ⟨mid, before, later, hbefore, hlater, hevents, hshows⟩ := ih hoccupied
      exact ⟨mid, before, later, hbefore, .refused hlater hallowed he hfire, hevents, hshows⟩
  · rintro ⟨mid, before, later, hbefore, hlater, -, hshows⟩
    obtain ⟨-, entries, hholds⟩ := hr.exists_holds_of_run hfresh hbefore
    have hbase := hr.keyedRows_base_of_run hfresh hbefore
    exact hr.occupied_of_run hfresh hbefore hlater
      ((hr.occupied_iff_shows_or_marksDeleted hbase hholds).2 (.inl hshows))

end

end Redirection

/-! ### Layers -/

/-- The shadow table of a layer has the columns of the view and the status column. -/
theorem exists_regular_of_shadow {s : Schema} {config : Config} {name : String} {l : Layer Plan}
    (hl : s.layer config name = .ok l)
    (hshadow : (l.shadow.columns.map Column.name).Pairwise fun c c' => sameName c c' = false) :
    ∃ r : Redirection, r.Regular ∧ r.IsFor s l := by
  obtain ⟨t, key, -, -, -, -, rfl⟩ := Schema.layer_eq_ok_iff.1 hl
  have hcolumns : ((t.shadow key).columns.map Column.name) =
      t.columns.map Column.name ++ [statusColumn] := by
    simp [Table.shadow, statusColumnDef]
  change (((t.shadow key).columns.map Column.name).Pairwise _) at hshadow
  rw [hcolumns, List.pairwise_append] at hshadow
  obtain ⟨hdistinct, -, hstatus⟩ := hshadow
  exact exists_regular_of_layer hl hdistinct fun c hc =>
    hstatus c.name (List.mem_map_of_mem hc) statusColumn (List.mem_singleton_self _)

/-- An insert is refused if its key is null, or the view shows it, or a row with it is marked as
deleted; that is, if the view shows it or has shown it before. An accepted insert adds its row to
the view and nothing else. -/
theorem insert_refused_iff {α : Type} [DecidableEq α] {s : Schema} {config : Config}
    {name : String} {l : Layer Plan} (hl : s.layer config name = .ok l)
    (hshadow : (l.shadow.columns.map Column.name).Pairwise fun c c' => sameName c c' = false)
    {start db : Database α} {events : List (Event α)} (hfresh : l.plan.Fresh start)
    (hrun : l.plan.Run (fun _ => True) start db events) {new : Row α}
    (hnew : l.plan.Concerns db (.insert new)) (found : Relation → List (String × String) → Bool) :
    ((∃ refusal, l.plan.fire found db (.insert new) = .error refusal) ↔
        ¬new.HasKey l.primaryKey ∨ l.plan.Shows db new ∨ l.plan.MarksDeleted db new) ∧
      (l.plan.MarksDeleted db new ↔
        ¬l.plan.Shows db new ∧ l.plan.HasShown (fun _ => True) start db events new) ∧
      ∀ db', l.plan.fire found db (.insert new) = .ok db' →
        (l.plan.view db').Perm (l.plan.view db ++ [new]) := by
  obtain ⟨r, hr, hplan, hrkey, -, -, -⟩ := exists_regular_of_shadow hl hshadow
  rw [hplan] at hfresh hrun hnew ⊢
  rw [hrkey]
  obtain ⟨-, entries, hholds⟩ := hr.exists_holds_of_run hfresh hrun
  have hbase := hr.keyedRows_base_of_run hfresh hrun
  have hoccupied : r.Occupied db (new.key r.key) ↔
      r.plan.Shows db new ∨ r.plan.MarksDeleted db new :=
    hr.occupied_iff_shows_or_marksDeleted hbase hholds
  refine ⟨?_, ⟨fun hmarked => ⟨hr.not_shows_of_marksDeleted hbase hholds hmarked, ?_⟩, ?_⟩, ?_⟩
  · have herror : (∃ refusal, r.plan.fire found db (.insert new) = .error refusal) ↔
        ¬∃ db', r.plan.fire found db (.insert new) = .ok db' := by
      cases r.plan.fire found db (.insert new) <;> simp
    rw [herror, hr.exists_fire_insert_iff hholds, not_and_or, not_not, hoccupied]
  · exact (hr.occupied_iff_hasShown hfresh hrun).1 (hoccupied.2 (.inr hmarked))
  · rintro ⟨hnotShows, hshown⟩
    exact (hoccupied.1 ((hr.occupied_iff_hasShown hfresh hrun).2 hshown)).resolve_left hnotShows
  · exact fun db' hfire => hr.view_perm_apply hbase hholds hnew trivial hfire

theorem insert_refused_iff_persons :
    ∃ db : Database String,
      Person.layer.plan.Run (fun _ => True) Person.start db [.delete (Person.row 1 "Ann")] ∧
        (∃ refusal, Person.layer.plan.fire Person.unreferenced db (.insert (Person.row 1 "Eve")) =
          .error refusal) ∧
        ∃ db', Person.layer.plan.fire Person.unreferenced db (.insert (Person.row 2 "Bob")) =
            .ok db' ∧
          (Person.layer.plan.view db').Perm
            (Person.layer.plan.view db ++ [Person.row 2 "Bob"]) := by
  have h : succeedsWith
      (Person.layer.plan.fire Person.unreferenced Person.start (.delete (Person.row 1 "Ann")))
      (fun db => succeedsWith
        (Person.layer.plan.fire Person.unreferenced db (.insert (Person.row 2 "Bob")))
        fun _ => true) = true := by
    decide +kernel
  obtain ⟨db, hdelete, h⟩ := exists_of_succeedsWith h
  obtain ⟨db', hinsert, -⟩ := exists_of_succeedsWith h
  have hann : Person.row 1 "Ann" ∈ Person.layer.plan.view Person.start := by decide +kernel
  have hrun : Person.layer.plan.Run (fun _ => True) Person.start db
      [.delete (Person.row 1 "Ann")] :=
    .accepted .start trivial hann hdelete
  have hverdict (new : Row String) (hnew : Person.layer.plan.Concerns db (.insert new)) :=
    insert_refused_iff Person.layer_eq_ok (by decide +kernel) Person.fresh_start hrun hnew
      Person.unreferenced
  obtain ⟨hrefused, hmarked, -⟩ := hverdict (Person.row 1 "Eve") rfl
  obtain ⟨-, -, hadded⟩ := hverdict (Person.row 2 "Bob") rfl
  have hshown : Person.layer.plan.HasShown (fun _ => True) Person.start db
      [.delete (Person.row 1 "Ann")] (Person.row 1 "Eve") :=
    ⟨_, [], _, .start, hrun, rfl, _, hann, by decide +kernel⟩
  refine ⟨db, hrun, hrefused.2 (.inr ?_), db', hinsert, hadded db' hinsert⟩
  by_cases hshows : Person.layer.plan.Shows db (Person.row 1 "Eve")
  · exact .inl hshows
  · exact .inr (hmarked.2 ⟨hshows, hshown⟩)

/-- A row that was deleted cannot be inserted again, be it a row of the base relation or one that
was inserted before, although the view does not show its key. -/
theorem exists_refused_insert_of_deleted :
    (∃ db : Database String,
      Person.layer.plan.Run (fun _ => True) Person.start db [.delete (Person.row 1 "Ann")] ∧
        ¬Person.layer.plan.Shows db (Person.row 1 "Ann") ∧
          Person.layer.plan.fire Person.unreferenced db (.insert (Person.row 1 "Ann")) =
            .error (.raised duplicateKeyMessage)) ∧
    ∃ db : Database String,
      Person.layer.plan.Run (fun _ => True) Person.start db
          [.insert (Person.row 2 "Bob"), .delete (Person.row 2 "Bob")] ∧
        ¬Person.layer.plan.Shows db (Person.row 2 "Bob") ∧
          Person.layer.plan.fire Person.unreferenced db (.insert (Person.row 2 "Bob")) =
            .error .keyExists := by
  constructor
  · have h : succeedsWith
        (Person.layer.plan.fire Person.unreferenced Person.start (.delete (Person.row 1 "Ann")))
        (fun db => ¬Person.layer.plan.Shows db (Person.row 1 "Ann") &&
          failsWith (Person.layer.plan.fire Person.unreferenced db (.insert (Person.row 1 "Ann")))
            (.raised duplicateKeyMessage)) = true := by
      decide +kernel
    obtain ⟨db, hdelete, h⟩ := exists_of_succeedsWith h
    obtain ⟨hgone, hrefused⟩ := Bool.and_eq_true_iff.1 h
    have hann : Person.row 1 "Ann" ∈ Person.layer.plan.view Person.start := by decide +kernel
    exact ⟨db, .accepted .start trivial hann hdelete, of_decide_eq_true hgone,
      eq_error_of_failsWith hrefused⟩
  · have h : succeedsWith
        (Person.layer.plan.fire Person.unreferenced Person.start (.insert (Person.row 2 "Bob")))
        (fun db => Person.row 2 "Bob" ∈ Person.layer.plan.view db &&
          succeedsWith
            (Person.layer.plan.fire Person.unreferenced db (.delete (Person.row 2 "Bob")))
            fun db' => ¬Person.layer.plan.Shows db' (Person.row 2 "Bob") &&
              failsWith
                (Person.layer.plan.fire Person.unreferenced db' (.insert (Person.row 2 "Bob")))
                .keyExists) = true := by
      decide +kernel
    obtain ⟨db, hinsert, h⟩ := exists_of_succeedsWith h
    obtain ⟨hvisible, h⟩ := Bool.and_eq_true_iff.1 h
    obtain ⟨db', hdelete, h⟩ := exists_of_succeedsWith h
    obtain ⟨hgone, hrefused⟩ := Bool.and_eq_true_iff.1 h
    have hbob : Person.layer.plan.Concerns Person.start (.insert (Person.row 2 "Bob")) := rfl
    have hdeleted : Person.row 2 "Bob" ∈ Person.layer.plan.view db := of_decide_eq_true hvisible
    exact ⟨db', .accepted (.accepted .start trivial hbob hinsert) trivial hdeleted hdelete,
      of_decide_eq_true hgone, eq_error_of_failsWith hrefused⟩

end Overlay
