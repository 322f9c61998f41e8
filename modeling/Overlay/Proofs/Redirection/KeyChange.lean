import Overlay.Proofs.Redirection.Run

/-!
# Updates that change a key

An accepted update that changes the key of its row takes the old row out of the view and puts the
new row into it. It looks for the new key in the base relation only, so that it also takes out a
visible row that has this key in the shadow relation. All other rows stay exactly if there is no
such row. The triggers are those that the texts of the layer are read as (`Schema.read_of_layer`).
-/

namespace Overlay

open Sql Text

namespace Redirection

variable {α : Type} [DecidableEq α] {r : Redirection} {db db' : Database α}
  {entries : List (Entry α)} {old new o : Row α} {assigned : List String}
  {found : Relation → List (String × String) → Bool}

/-- The rows that are visible after a change of key. -/
theorem Regular.mem_view_of_keyChange (hr : r.Regular)
    (hbase : KeyedRows r.columns r.key (db.rows r.base)) (h : r.Holds db entries)
    (he : r.plan.Concerns db (.update old new assigned)) (hkey : old.key r.key ≠ new.key r.key)
    (hfire : r.plan.fire found db (.update old new assigned) = .ok db') :
    o ∈ r.plan.view db' ↔
      o = new ∨ o ∈ r.plan.view db ∧ o.key r.key ≠ old.key r.key ∧ o.key r.key ≠ new.key r.key := by
  obtain ⟨hold, hnew, hassigned⟩ := he
  have hcolumns := (hr.keyedRows_view hbase h).columns old hold
  have hassign : r.AssignsKey assigned := by
    by_contra hnot
    exact hkey (hr.key_eq_of_not_assignsKey hassigned hnot)
  obtain ⟨-, -, hhas, hhas', rfl⟩ :=
    (hr.fire_update_eq_ok_iff_of_assignsKey h hcolumns hassign).1 hfire
  rw [hr.view_move hbase h hcolumns hhas hnew hhas']
  simp only [List.mem_append, List.mem_filter, List.mem_singleton, decide_eq_true_eq, and_assoc]
  exact or_comm

end Redirection

/-- After an accepted change of key the old row is not visible and the new row is. The other visible
rows stay exactly if none of them has the new key, be it in the base relation or in the shadow
relation. -/
theorem view_of_keyChange {α : Type} [DecidableEq α] {s : Schema} {config : Config}
    {name : String} {l : Layer Plan} (hl : s.layer config name = .ok l)
    (hdistinct : (l.columns.map Column.name).Pairwise fun c c' => sameName c c' = false)
    (hstatus : ∀ c ∈ l.columns, sameName c.name statusColumn = false)
    {start db db' : Database α} {events : List (Event α)} (hfresh : l.plan.Fresh start)
    (hrun : l.plan.Run (fun _ => True) start db events) {old new : Row α} {assigned : List String}
    {found : Relation → List (String × String) → Bool}
    (he : l.plan.Concerns db (.update old new assigned))
    (hkey : old.key l.primaryKey ≠ new.key l.primaryKey)
    (hfire : l.plan.fire found db (.update old new assigned) = .ok db') :
    (old ∉ l.plan.view db' ∧ new ∈ l.plan.view db') ∧
      ((∀ o ∈ l.plan.view db, o ≠ old → o ∈ l.plan.view db') ↔
        ∀ o ∈ l.plan.view db, o.key l.primaryKey = new.key l.primaryKey → o = new) := by
  obtain ⟨r, hr, hplan, hrkey, -, -, -⟩ := exists_regular_of_layer hl hdistinct hstatus
  rw [hplan] at hfresh hrun he hfire ⊢
  rw [hrkey] at hkey ⊢
  obtain ⟨-, entries, hholds⟩ := hr.exists_holds_of_run hfresh hrun
  have hbase := hr.keyedRows_base_of_run hfresh hrun
  have hview := hr.keyedRows_view hbase hholds
  have hmem (o : Row α) := hr.mem_view_of_keyChange (o := o) hbase hholds he hkey hfire
  refine ⟨⟨fun hold => ?_, (hmem new).2 (.inl rfl)⟩, fun hall o ho hsame => ?_,
    fun hall o ho hne => ?_⟩
  · rcases (hmem old).1 hold with rfl | ⟨-, hne, -⟩
    · exact hkey rfl
    · exact hne rfl
  · have hne : o ≠ old := by
      rintro rfl
      exact hkey hsame
    rcases (hmem o).1 (hall o ho hne) with heq | ⟨-, -, hdiffers⟩
    · exact heq
    · exact absurd hsame hdiffers
  · by_cases hsame : o.key r.key = new.key r.key
    · exact (hmem o).2 (.inl (hall o ho hsame))
    · exact (hmem o).2 (.inr ⟨ho, fun hkeys => hne (hview.eq_of_key ho he.1 hkeys), hsame⟩)

theorem view_of_keyChange_persons :
    ∃ db : Database String,
      Person.layer.plan.fire Person.unreferenced Person.start
        (.update (Person.row 1 "Ann") (Person.row 2 "Ann") ["id"]) = .ok db ∧
        Person.row 1 "Ann" ∉ Person.layer.plan.view db ∧
          Person.row 2 "Ann" ∈ Person.layer.plan.view db := by
  have h : succeedsWith (Person.layer.plan.fire Person.unreferenced Person.start
      (.update (Person.row 1 "Ann") (Person.row 2 "Ann") ["id"])) (fun _ => true) = true := by
    decide +kernel
  obtain ⟨db, hfire, -⟩ := exists_of_succeedsWith h
  have hann : Person.layer.plan.Concerns Person.start
      (.update (Person.row 1 "Ann") (Person.row 2 "Ann") ["id"]) :=
    ⟨by decide +kernel, rfl, by decide +kernel⟩
  exact ⟨db, hfire, (view_of_keyChange Person.layer_eq_ok (by decide +kernel) (by decide +kernel)
    Person.fresh_start .start hann (by decide +kernel) hfire).1⟩

/-- A row that was inserted is lost when the key of another row is changed to its key. -/
theorem exists_keyChange_loses_row :
    ∃ db db' : Database String,
      Person.layer.plan.Run (fun _ => True) Person.start db [.insert (Person.row 2 "Bob")] ∧
        Person.layer.plan.Concerns db
          (.update (Person.row 1 "Ann") (Person.row 2 "Ann") ["id"]) ∧
          Person.layer.plan.fire Person.unreferenced db
            (.update (Person.row 1 "Ann") (Person.row 2 "Ann") ["id"]) = .ok db' ∧
            Person.row 2 "Bob" ∈ Person.layer.plan.view db ∧
              Person.row 2 "Bob" ∉ Person.layer.plan.view db' := by
  have h : succeedsWith
      (Person.layer.plan.fire Person.unreferenced Person.start (.insert (Person.row 2 "Bob")))
      (fun db => (Person.row 1 "Ann" ∈ Person.layer.plan.view db ∧
          Person.row 2 "Bob" ∈ Person.layer.plan.view db) &&
        succeedsWith (Person.layer.plan.fire Person.unreferenced db
          (.update (Person.row 1 "Ann") (Person.row 2 "Ann") ["id"]))
          fun db' => Person.row 2 "Bob" ∉ Person.layer.plan.view db') = true := by
    decide +kernel
  obtain ⟨db, hinsert, h⟩ := exists_of_succeedsWith h
  obtain ⟨hvisible, h⟩ := Bool.and_eq_true_iff.1 h
  obtain ⟨hann, hbob⟩ := of_decide_eq_true hvisible
  obtain ⟨db', hupdate, hlost⟩ := exists_of_succeedsWith h
  have hnew : Person.layer.plan.Concerns Person.start (.insert (Person.row 2 "Bob")) := rfl
  exact ⟨db, db', .accepted .start trivial hnew hinsert, ⟨hann, rfl, by decide +kernel⟩, hupdate,
    hbob, of_decide_eq_true hlost⟩

end Overlay
