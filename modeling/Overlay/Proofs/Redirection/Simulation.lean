import Overlay.Proofs.Layer.Reading

/-!
# A view in place of a table

The four texts of a layer, read as a query and three triggers, are a copy-on-write simulation of the
base table (`view_simulates_table`): as long as no update changes the key of its row, the base
relation stays as it is, and after any run the view shows what the accepted operations would have
made of the base table itself.
-/

namespace Overlay

open Sql Text

/-- The texts of a layer are read as its plan if their names are words. Operations on the view that
keep keys leave the base relation as it is, and the view is a table with the key that shows what the
accepted operations make of the base table. -/
theorem view_simulates_table {α : Type} [DecidableEq α] {s : Schema} {config : Config}
    {name : String} {l : Layer Plan} (hl : s.layer config name = .ok l)
    (hdistinct : (l.columns.map Column.name).Pairwise fun c c' => sameName c c' = false)
    (hstatus : ∀ c ∈ l.columns, sameName c.name statusColumn = false) :
    (s.WordedAround config name → l.written.plan.read = some l.plan) ∧
      l.plan.select.base = ⟨s.name, l.name⟩ ∧
      l.plan.select.shadow = ⟨l.redirectedSchema, l.shadow.name⟩ ∧
      ∀ (start db : Database α) (events : List (Event α)), l.plan.Fresh start →
        l.plan.Run (Event.KeepsKey l.primaryKey) start db events →
          db.rows l.plan.select.base = start.rows l.plan.select.base ∧
          KeyedRows (l.columns.map Column.name) l.primaryKey (l.plan.view db) ∧
          (l.plan.view db).Perm (events.foldl Event.apply (start.rows l.plan.select.base)) := by
  refine ⟨Schema.read_of_layer hl, ?_⟩
  obtain ⟨r, hr, hfor⟩ := exists_regular_of_layer hl hdistinct hstatus
  rw [hfor.plan, hfor.key, hfor.columns, ← hfor.base, ← hfor.shadow]
  refine ⟨rfl, rfl, fun start db events hfresh hrun => ?_⟩
  obtain ⟨hunchanged, entries, hholds⟩ := hr.exists_holds_of_run hfresh hrun
  exact ⟨hunchanged, hr.keyedRows_view (hr.keyedRows_base_of_run hfresh hrun) hholds,
    hr.view_perm_of_run hfresh hrun⟩

/-- A person is added, renamed, and another one removed. -/
theorem view_simulates_persons :
    ∃ db : Database String,
      Person.layer.written.plan.read = some Person.layer.plan ∧
      Person.layer.plan.Run (Event.KeepsKey ["id"]) Person.start db
        [.insert (Person.row 2 "Bob"), .update (Person.row 2 "Bob") (Person.row 2 "Bea") ["name"],
          .delete (Person.row 1 "Ann")] ∧
      (Person.layer.plan.view db).Perm [Person.row 2 "Bea"] := by
  have h : succeedsWith
      (Person.layer.plan.fire Person.unreferenced Person.start (.insert (Person.row 2 "Bob")))
      fun db => Person.row 2 "Bob" ∈ Person.layer.plan.view db && succeedsWith
        (Person.layer.plan.fire Person.unreferenced db
          (.update (Person.row 2 "Bob") (Person.row 2 "Bea") ["name"]))
        fun db => Person.row 1 "Ann" ∈ Person.layer.plan.view db && succeedsWith
          (Person.layer.plan.fire Person.unreferenced db (.delete (Person.row 1 "Ann")))
          fun _ => true := by
    decide +kernel
  obtain ⟨db₁, hinsert, h⟩ := exists_of_succeedsWith h
  obtain ⟨hbob, h⟩ := Bool.and_eq_true_iff.1 h
  obtain ⟨db₂, hupdate, h⟩ := exists_of_succeedsWith h
  obtain ⟨hann, h⟩ := Bool.and_eq_true_iff.1 h
  obtain ⟨db₃, hdelete, -⟩ := exists_of_succeedsWith h
  have hadd : Person.layer.plan.Concerns Person.start (.insert (Person.row 2 "Bob")) := rfl
  have hkeeps : (Event.update (Person.row 2 "Bob") (Person.row 2 "Bea") ["name"]).KeepsKey
      ["id"] := by
    unfold Event.KeepsKey
    decide +kernel
  have hremove : Person.row 1 "Ann" ∈ Person.layer.plan.view db₂ := of_decide_eq_true hann
  have hrename : Person.layer.plan.Concerns db₁
      (.update (Person.row 2 "Bob") (Person.row 2 "Bea") ["name"]) :=
    ⟨of_decide_eq_true hbob, rfl, by decide +kernel⟩
  have hrun : Person.layer.plan.Run (Event.KeepsKey ["id"]) Person.start db₃
      [.insert (Person.row 2 "Bob"), .update (Person.row 2 "Bob") (Person.row 2 "Bea") ["name"],
        .delete (Person.row 1 "Ann")] :=
    .accepted (.accepted (.accepted .start trivial hadd hinsert) hkeeps hrename hupdate) trivial
      hremove hdelete
  have hworded : Person.schema.Worded :=
    ⟨by decide +kernel, by decide +kernel, by decide +kernel⟩
  have hplain : [Event.insert (Person.row 2 "Bob"),
      .update (Person.row 2 "Bob") (Person.row 2 "Bea") ["name"],
      .delete (Person.row 1 "Ann")].foldl Event.apply
        (Person.start.rows Person.layer.plan.select.base) = [Person.row 2 "Bea"] := by
    decide +kernel
  obtain ⟨hread, -, -, hsimulates⟩ := view_simulates_table (α := String) Person.layer_eq_ok
    (by decide +kernel) (by decide +kernel)
  obtain ⟨-, -, hperm⟩ := hsimulates _ _ _ Person.fresh_start hrun
  exact ⟨db₃, hread (hworded.around (by decide) (by decide) _), hrun, hplain ▸ hperm⟩

end Overlay
