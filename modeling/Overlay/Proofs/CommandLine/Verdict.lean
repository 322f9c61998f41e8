import Overlay.Proofs.CommandLine.Log
import Overlay.Proofs.Layer.Build
import Overlay.Proofs.SchemaText.Names
import Overlay.Proofs.SchemaText.RoundTrip

/-!
# What `check` says and what `plan` does

The report of `check` has a verdict on each table. `plan` succeeds for all tables exactly if no
verdict is against one, and else fails with what the first such verdict says; for a single table it
succeeds exactly if the verdict on it is favourable (`Invocation.check_predicts_plan`). All of this
is about runs without colours. The log stands on the standard error too: as long as no records other
than warnings are shown, it has at most one line, about the table at which `plan` stops.
-/

namespace Overlay.CommandLine

open SchemaText Text

/-! ### Verdicts -/

/-- What is said of a table. -/
inductive Verdict where
  /-- It can be redirected, by this key, and this many references point at it. -/
  | passes (table : String) (key : List String) (references : Nat)
  /-- It cannot be redirected, for this reason. -/
  | fails (table message : String)
  deriving DecidableEq, Repr

namespace Verdict

/-- The name of the table. -/
def table : Verdict → String
  | passes table _ _ => table
  | fails table _ => table

/-- Whether the table cannot be redirected. -/
def isFailure : Verdict → Bool
  | passes _ _ _ => false
  | fails _ _ => true

/-- The verdict in writing. -/
def line : Verdict → String
  | passes table key references =>
    "  ✓ " ++ table ++ " (key: " ++ ", ".intercalate key ++ ", referenced by " ++
      toString references ++ " key(s))"
  | fails table message => "  ✗ " ++ table ++ " " ++ message

/-- The verdict on an entry of a survey. -/
def of (s : Schema) : Table × Except Error (Layer Plan) → Verdict
  | (t, .ok l) => passes t.name l.primaryKey (s.referencing t.name).length
  | (t, .error e) => fails t.name e.message

end Verdict

/-- The verdicts on the tables of a schema. -/
def verdicts (s : Schema) (config : Config) : List Verdict :=
  (s.survey config).map (Verdict.of s)

/-- The summary of verdicts: how many there are, and how many of them are failures. -/
def verdictSummary (vs : List Verdict) : String :=
  if vs.countP Verdict.isFailure = 0 then
    "✓ all " ++ toString vs.length ++ " table(s) can be redirected"
  else
    "⚠ " ++ toString (vs.countP Verdict.isFailure) ++ " of " ++ toString vs.length ++
      " table(s) cannot be redirected"

/-- The report of `check` with these verdicts: one line each between a title and a summary. -/
def verdictReport (config : Config) (s : Schema) (vs : List Verdict) : String :=
  "Schema: " ++ s.name ++ " → " ++ config.redirectedSchema ++ "\n" ++
    String.join (vs.map fun v => v.line ++ "\n") ++ "\n" ++ verdictSummary vs ++ "\n"

section

variable {s : Schema} {config : Config} {t : Table} {e : Error}

theorem surveyLine_eq (entry : Table × Except Error (Layer Plan)) :
    surveyLine false s entry = asLine (Verdict.of s entry).line := by
  obtain ⟨t, _ | _⟩ := entry <;> rfl

theorem Verdict.isFailure_of (entry : Table × Except Error (Layer Plan)) :
    (Verdict.of s entry).isFailure = isBlocked entry := by
  obtain ⟨t, _ | _⟩ := entry <;> rfl

theorem surveySummary_eq (vs : List Verdict) :
    surveySummary false vs.length (vs.countP Verdict.isFailure) = verdictSummary vs ++ "\n" := by
  unfold surveySummary verdictSummary
  split <;> rfl

theorem checkReport_eq :
    checkReport false config s = verdictReport config s (verdicts s config) := by
  have hlines : (s.survey config).map (surveyLine false s) =
      (verdicts s config).map fun v => asLine v.line := by
    rw [verdicts, List.map_map]
    exact List.map_congr_left fun entry _ => surveyLine_eq entry
  have hcount : (s.survey config).countP isBlocked =
      (verdicts s config).countP Verdict.isFailure := by
    rw [verdicts, List.countP_map]
    exact List.countP_congr fun entry _ => by rw [Function.comp_apply, Verdict.isFailure_of]
  have hlength : s.tables.length = (verdicts s config).length := by
    simp [verdicts, Schema.survey]
  have htitle : asLine ("Schema:" ++ " " ++ s.name ++ " " ++ "→" ++ " " ++
      config.redirectedSchema) =
        "Schema: " ++ s.name ++ " → " ++ config.redirectedSchema ++ "\n" := by
    simp [asLine, ← String.toList_inj]
  have hreport : checkReport false config s =
      asLine ("Schema:" ++ " " ++ s.name ++ " " ++ "→" ++ " " ++ config.redirectedSchema) ++
        String.join ((s.survey config).map (surveyLine false s)) ++ "\n" ++
          surveySummary false s.tables.length ((s.survey config).countP isBlocked) := rfl
  rw [hreport, htitle, hlines, hlength, hcount, surveySummary_eq, ← String.append_assoc]
  rfl

theorem Verdict.table_of (entry : Table × Except Error (Layer Plan)) :
    (Verdict.of s entry).table = entry.1.name := by
  obtain ⟨t, _ | _⟩ := entry <;> rfl

theorem table_verdicts : (verdicts s config).map Verdict.table = s.tables.map Table.name := by
  simp [verdicts, Schema.survey, Verdict.table_of]

theorem mem_verdicts {v : Verdict} :
    v ∈ verdicts s config ↔ ∃ t ∈ s.tables, v = .of s (t, s.layer config t.name) := by
  simp [verdicts, Schema.survey, eq_comm]

theorem forall_exists_layer_of_countP (h : (verdicts s config).countP Verdict.isFailure = 0) :
    ∀ t ∈ s.tables, ∃ l, s.layer config t.name = .ok l := by
  intro t ht
  have hv := List.countP_eq_zero.1 h _ (mem_verdicts.2 ⟨t, ht, rfl⟩)
  rw [Verdict.isFailure_of] at hv
  cases hl : s.layer config t.name with
  | ok l => exact ⟨l, rfl⟩
  | error e =>
    rw [hl] at hv
    exact absurd rfl hv

/-! ### The verdicts on a schema with valid keys -/

theorem newline_notMem_toDigits (n : Nat) : '\n' ∉ Nat.toDigits 10 n :=
  fun hmem => absurd (Nat.isDigit_of_mem_toDigits (by decide) (by decide) hmem) (by decide)

theorem newline_notMem_intercalate {names : List String} (h : ∀ name ∈ names, IsWord name) :
    '\n' ∉ (", ".intercalate names).toList :=
  fun hmem => absurd (isLinePart_intercalate h _ hmem).kept.1 (by simp)

variable (hworded : s.Worded) (hkeyed : s.WellKeyed) (hdistinct : s.DistinctTables)

include hkeyed hdistinct

theorem Verdict.of_primaryKey (ht : t ∈ s.tables) {key : List String}
    (hkey : t.primaryKey = some key) :
    Verdict.of s (t, s.layer config t.name) =
      .passes t.name key (s.referencing t.name).length := by
  have hfound := hdistinct.table?_eq_some_iff.2 ⟨ht, sameName_refl t.name⟩
  rw [hkeyed.layer_of_primaryKey hfound hkey]
  rfl

theorem Verdict.of_primaryKey_eq_none (ht : t ∈ s.tables) (hkey : t.primaryKey = none) :
    Verdict.of s (t, s.layer config t.name) =
      .fails t.name ("no primary key defined on table " ++ t.name) := by
  have hfound := hdistinct.table?_eq_some_iff.2 ⟨ht, sameName_refl t.name⟩
  rw [hkeyed.layer_of_primaryKey_eq_none hfound hkey]
  rfl

theorem withCause_of_layer {name : String} (h : s.layer config name = .error e) :
    withCause e = e.message := by
  obtain ⟨rfl, -⟩ | ⟨t, -, -, -, rfl⟩ := (hkeyed.layer_eq_error_iff hdistinct).1 h <;> rfl

theorem Verdict.isFailure_eq_false_iff (ht : t ∈ s.tables) :
    (Verdict.of s (t, s.layer config t.name)).isFailure = false ↔ t.primaryKey.isSome := by
  cases hkey : t.primaryKey with
  | none => simp [Verdict.of_primaryKey_eq_none hkeyed hdistinct ht hkey, Verdict.isFailure]
  | some key => simp [Verdict.of_primaryKey hkeyed hdistinct ht hkey, Verdict.isFailure]

include hworded

theorem Verdict.newline_notMem_line {v : Verdict} (hv : v ∈ verdicts s config) :
    '\n' ∉ v.line.toList := by
  obtain ⟨t, ht, rfl⟩ := mem_verdicts.1 hv
  have hname := (hworded.tables t ht).newline_notMem
  cases hkey : t.primaryKey with
  | none =>
    rw [Verdict.of_primaryKey_eq_none hkeyed hdistinct ht hkey]
    simp [Verdict.line, hname]
  | some key =>
    have hwords := ((hworded.writable hkeyed t ht).primaryKey key hkey).2
    have hcolumns := newline_notMem_intercalate hwords
    rw [Verdict.of_primaryKey hkeyed hdistinct ht hkey]
    simp [-String.toList_intercalate, Verdict.line, hname, hcolumns, newline_notMem_toDigits]

end

/-! ### Outcomes -/

/-- The outcome of a run that fails with this message. -/
def failed (message : String) : Outcome :=
  { exitCode := 1, stdout := "", stderr := "Error: " ++ message ++ "\n" }

/-- The outcome of a run with this result. -/
def Outcome.of : Except Failure String → Outcome
  | .ok report => { exitCode := 0, stdout := report, stderr := "" }
  | .error failure => failed failure.message

/-- What a command prints for a schema. -/
def Command.report (config : Config) (s : Schema) : Command → Except Failure String
  | .plan _ table format => do
    let layers ← (chosenLayers s config table).mapError .layer
    .ok (planReport false config format (layers.map Layer.written))
  | .check _ => .ok (checkReport false config s)

namespace Invocation

/-- The outcome of `check`, with the other arguments of the invocation. -/
def checkOutcome (i : Invocation) (inputs : Inputs) (path : String) : Outcome :=
  { i with command := .check path }.outcome false inputs

/-- The outcome of `plan`, with the other arguments of the invocation. -/
def planOutcome (i : Invocation) (inputs : Inputs) (path : String) (table : Option String)
    (format : Format) : Outcome :=
  { i with command := .plan path table format }.outcome false inputs

/-- What stands on the standard error after `check`, the log included. -/
def checkError (i : Invocation) (view : LogView) (inputs : Inputs) (path : String) : String :=
  { i with command := .check path }.standardError view false inputs

/-- What stands on the standard error after `plan`, the log included. -/
def planError (i : Invocation) (view : LogView) (inputs : Inputs) (path : String)
    (table : Option String) (format : Format) : String :=
  { i with command := .plan path table format }.standardError view false inputs

section

variable {i : Invocation} {view : LogView} {inputs : Inputs} {path : String} {config : Config}
  {s : Schema}

theorem outcome_eq : i.outcome false inputs = .of (i.report false inputs) := by
  unfold outcome
  cases i.report false inputs <;> rfl

theorem report_eq (command : Command) :
    { i with command }.report false inputs = (i.resolve inputs.config >>= fun config =>
      loadSchema command.schema inputs.schema >>= fun s => command.report config s) := by
  cases command <;> rfl

/-- What is logged once configuration and schema are there depends on the command. -/
theorem log_eq (command : Command) :
    { i with command }.log view.standardPath inputs =
      i.configLog view.standardPath inputs.config ++
        match i.resolve inputs.config, loadSchema command.schema inputs.schema with
        | .ok config, .ok s => command.log config s
        | _, _ => [] := rfl

variable (hconfig : i.resolve inputs.config = .ok config)
  (hs : loadSchema path inputs.schema = .ok s)

include hconfig hs

theorem outcome_of_loaded (command : Command) (hpath : command.schema = path) :
    { i with command }.outcome false inputs = .of (command.report config s) := by
  rw [outcome_eq, report_eq, hconfig, ok_bind, hpath, hs, ok_bind]

/-- If only warnings can be shown, what stands on the standard error are those of the command and
what the run itself says. -/
theorem standardError_of_loaded (hview : i.ShowsWarningsAtMost view) (command : Command)
    (hpath : command.schema = path) :
    { i with command }.standardError view false inputs =
      i.shown view ((command.log config s).filter LogRecord.isWarning) ++
        ({ i with command }.outcome false inputs).stderr := by
  have hshown (records : List LogRecord) : { i with command }.shown view records =
      i.shown view (records.filter LogRecord.isWarning) := shown_eq_shown_filter hview
  rw [standardError, hshown, log_eq, hconfig, hpath, hs, List.filter_append, filter_configLog,
    List.nil_append]

theorem checkOutcome_eq : i.checkOutcome inputs path =
    { exitCode := 0, stdout := checkReport false config s, stderr := "" } :=
  outcome_of_loaded hconfig hs (.check path) rfl

theorem planOutcome_of_ok {table : Option String} {ls : List (Layer Plan)}
    (h : chosenLayers s config table = .ok ls) (format : Format) :
    ∃ report, i.planOutcome inputs path table format =
      { exitCode := 0, stdout := report, stderr := "" } := by
  have houtcome := outcome_of_loaded hconfig hs (.plan path table format) rfl
  rw [Command.report, h] at houtcome
  exact ⟨_, houtcome⟩

theorem planOutcome_of_error {table : Option String} {e : Error}
    (h : chosenLayers s config table = .error e) (format : Format) :
    i.planOutcome inputs path table format = failed (withCause e) := by
  have houtcome := outcome_of_loaded hconfig hs (.plan path table format) rfl
  rw [Command.report, h] at houtcome
  exact houtcome

theorem checkError_eq (hview : i.ShowsWarningsAtMost view) :
    i.checkError view inputs path = "" := by
  have houtcome := checkOutcome_eq hconfig hs
  have hlog : (Command.log config s (.check path)).filter LogRecord.isWarning = [] := by
    rw [Command.log, List.filter_flatMap]
    exact List.flatMap_eq_nil_iff.2 fun t _ => filter_layerLog
  rw [checkOutcome] at houtcome
  rw [checkError, standardError_of_loaded hconfig hs hview _ rfl, hlog, houtcome, shown_nil]
  rfl

theorem planError_eq (hview : i.ShowsWarningsAtMost view) (table : Option String)
    (format : Format) :
    i.planError view inputs path table format =
      i.shown view ((Command.log config s (.plan path table format)).filter LogRecord.isWarning) ++
        (i.planOutcome inputs path table format).stderr :=
  standardError_of_loaded hconfig hs hview (.plan path table format) rfl

/-- `plan` succeeds exactly if the layers that were asked for can be built. -/
theorem planOutcome_iff {table : Option String} (format : Format) :
    (i.planOutcome inputs path table format).exitCode = 0 ↔
      ∃ ls, chosenLayers s config table = .ok ls := by
  cases hlayers : chosenLayers s config table with
  | ok ls =>
    obtain ⟨report, houtcome⟩ := planOutcome_of_ok hconfig hs hlayers format
    simp [houtcome]
  | error e => simp [planOutcome_of_error hconfig hs hlayers format, failed]

end

end Invocation

/-- Both commands agree on a schema: `check` gives a verdict on each table, which says what `plan`
does. What is said of outcomes is about what a run itself prints, what is said of the standard error
also about the log, as long as no records other than warnings are shown. -/
structure Invocation.Agrees (i : Invocation) (inputs : Inputs) (path : String) (config : Config)
    (s : Schema) (vs : List Verdict) : Prop where
  tables : vs.map Verdict.table = s.tables.map Table.name
  /-- Each verdict takes up one line of the report. -/
  one_line : ∀ v ∈ vs, '\n' ∉ v.line.toList
  check : i.checkOutcome inputs path =
    { exitCode := 0, stdout := verdictReport config s vs, stderr := "" }
  check_error : ∀ view, i.ShowsWarningsAtMost view → i.checkError view inputs path = ""
  plan_succeeds : ∀ format,
    (i.planOutcome inputs path none format).exitCode = 0 ∧
      (i.planOutcome inputs path none format).stderr = "" ↔ vs.countP Verdict.isFailure = 0
  plan_error : vs.countP Verdict.isFailure = 0 → ∀ format view, i.ShowsWarningsAtMost view →
    i.planError view inputs path none format = ""
  /-- The first unfavourable verdict is the message of `plan`, which logs one warning about it. -/
  plan_fails : vs.countP Verdict.isFailure ≠ 0 → ∃ before table message after,
    vs = before ++ .fails table message :: after ∧ (∀ v ∈ before, v.isFailure = false) ∧
      ∀ format, i.planOutcome inputs path none format = failed message ∧
        ∀ view, i.ShowsWarningsAtMost view → i.planError view inputs path none format =
          i.shown view [.aborted s table message] ++ ("Error: " ++ message ++ "\n")
  plan_table : ∀ v ∈ vs, ∀ name, sameName v.table name = true → ∀ format,
    (i.planOutcome inputs path (some name) format).exitCode = 0 ↔ v.isFailure = false

section

variable {i : Invocation} {inputs : Inputs} {path : String} {config : Config} {s : Schema}
  (hconfig : i.resolve inputs.config = .ok config) (hs : loadSchema path inputs.schema = .ok s)
  (hkeyed : s.WellKeyed) (hdistinct : s.DistinctTables)

include hkeyed hdistinct

theorem countP_isFailure_eq_zero_iff :
    (verdicts s config).countP Verdict.isFailure = 0 ↔ ∃ ls, s.layers config = .ok ls := by
  have hlayers : (∃ ls, s.layers config = .ok ls) ↔ ∀ t ∈ s.tables, t.primaryKey.isSome := by
    simp only [hkeyed.layers_eq_ok_iff hdistinct]
    exact ⟨fun ⟨_, h, _⟩ => h, fun h => ⟨_, h, rfl⟩⟩
  rw [hlayers, List.countP_eq_zero]
  constructor
  · intro h t ht
    rw [← Verdict.isFailure_eq_false_iff hkeyed hdistinct ht, Bool.eq_false_iff]
    exact h _ (mem_verdicts.2 ⟨t, ht, rfl⟩)
  · intro h v hv
    obtain ⟨t, ht, rfl⟩ := mem_verdicts.1 hv
    exact Bool.eq_false_iff.1 ((Verdict.isFailure_eq_false_iff hkeyed hdistinct ht).2 (h t ht))

theorem exists_chosenLayers_iff {t : Table} {name : String} (ht : t ∈ s.tables)
    (hname : sameName t.name name = true) :
    (∃ ls, chosenLayers s config (some name) = .ok ls) ↔ t.primaryKey.isSome := by
  have hlayer (l : Layer Plan) : s.layer config name = .ok l ↔
      t.primaryKey.isSome ∧ l = t.layer config s (t.primaryKey.getD []) :=
    hkeyed.layer_eq_ok_iff hdistinct ht hname
  constructor
  · rintro ⟨ls, hls⟩
    cases hl : s.layer config name with
    | ok l => exact ((hlayer l).1 hl).1
    | error e =>
      rw [chosenLayers, hl] at hls
      cases hls
  · intro hkey
    rw [chosenLayers, (hlayer _).2 ⟨hkey, rfl⟩]
    exact ⟨_, rfl⟩

/-- The error of all layers is what the first unfavourable verdict says, and the warning in their
log. -/
theorem exists_first_failure {e : Error} (h : s.layers config = .error e) :
    withCause e = e.message ∧ ∃ before table after,
      verdicts s config = before ++ .fails table e.message :: after ∧
        (∀ v ∈ before, v.isFailure = false) ∧
        (layersLog s config s.tables).filter LogRecord.isWarning =
          [.aborted s table e.message] := by
  obtain ⟨before, t, after, hsurvey, hbefore⟩ := Schema.layers_eq_error_iff_survey.1 h
  obtain ⟨u, -, hu⟩ : ∃ u ∈ s.tables, (u, s.layer config u.name) = (t, .error e) :=
    List.mem_map.1 (by
      change _ ∈ s.survey config
      rw [hsurvey]
      simp)
  refine ⟨withCause_of_layer hkeyed hdistinct (congrArg Prod.snd hu), before.map (Verdict.of s),
    t.name, after.map (Verdict.of s), ?_, ?_, filter_layersLog hsurvey hbefore⟩
  · rw [verdicts, hsurvey, List.map_append, List.map_cons]
    rfl
  · intro v hv
    obtain ⟨entry, hentry, rfl⟩ := List.mem_map.1 hv
    obtain ⟨l, hl⟩ := hbefore entry hentry
    rw [Verdict.isFailure_of, isBlocked, hl]
    rfl

include hconfig hs

theorem agrees (hworded : s.Worded) : i.Agrees inputs path config s (verdicts s config) where
  tables := table_verdicts
  one_line _ hv := Verdict.newline_notMem_line hworded hkeyed hdistinct hv
  check := by
    rw [Invocation.checkOutcome_eq hconfig hs, checkReport_eq]
  check_error _ hview := Invocation.checkError_eq hconfig hs hview
  plan_succeeds format := by
    rw [countP_isFailure_eq_zero_iff hkeyed hdistinct]
    constructor
    · rintro ⟨hcode, -⟩
      exact (Invocation.planOutcome_iff hconfig hs format).1 hcode
    · rintro ⟨ls, hlayers⟩
      have hchosen : chosenLayers s config none = .ok ls := hlayers
      obtain ⟨report, houtcome⟩ := Invocation.planOutcome_of_ok hconfig hs hchosen format
      rw [houtcome]
      exact ⟨rfl, rfl⟩
  plan_error hcount format view hview := by
    obtain ⟨ls, hlayers⟩ := (countP_isFailure_eq_zero_iff hkeyed hdistinct).1 hcount
    have hchosen : chosenLayers s config none = .ok ls := hlayers
    obtain ⟨report, houtcome⟩ := Invocation.planOutcome_of_ok hconfig hs hchosen format
    have hlog : (layersLog s config s.tables).filter LogRecord.isWarning = [] :=
      filter_layersLog_of_forall (forall_exists_layer_of_countP hcount)
    rw [Invocation.planError_eq hconfig hs hview, houtcome, Command.log, hlog, Invocation.shown_nil]
    rfl
  plan_fails hcount := by
    rw [Ne, countP_isFailure_eq_zero_iff hkeyed hdistinct] at hcount
    cases hlayers : s.layers config with
    | ok ls => exact absurd ⟨ls, hlayers⟩ hcount
    | error e =>
      obtain ⟨hcause, before, table, after, hverdicts, hbefore, hlog⟩ :=
        exists_first_failure hkeyed hdistinct hlayers
      have hchosen : chosenLayers s config none = .error e := hlayers
      have houtcome := Invocation.planOutcome_of_error hconfig hs hchosen
      rw [hcause] at houtcome
      refine ⟨before, table, e.message, after, hverdicts, hbefore, fun format =>
        ⟨houtcome format, fun view hview => ?_⟩⟩
      rw [Invocation.planError_eq hconfig hs hview, houtcome format, Command.log, hlog]
      rfl
  plan_table v hv name hname format := by
    obtain ⟨t, ht, rfl⟩ := mem_verdicts.1 hv
    rw [Verdict.table_of] at hname
    rw [Invocation.planOutcome_iff hconfig hs format,
      Verdict.isFailure_eq_false_iff hkeyed hdistinct ht]
    exact exists_chosenLayers_iff hkeyed hdistinct ht hname

end

/-- A schema file with two tables, of which the second has no primary key. -/
def Inputs.halfKeyed (config : Config.Source) : Inputs :=
  { config
    schema :=
      .ok "schema s\ntable a\x7b\nk int primary_key\n\x7d\ntable b\x7b\nk int\n\x7d" }

end Overlay.CommandLine
