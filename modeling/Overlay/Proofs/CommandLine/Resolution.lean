import Mathlib.Data.List.TakeWhile
import Overlay.CommandLine.Run
import Overlay.Proofs.Case.Text
import Overlay.Proofs.Sequence

/-!
# The configuration of a run

A run takes each of the two names from the command line, the environment, the configuration file or
the defaults, whichever has it first. The names of the file, with the defaults for those it leaves
out, have to be sound on their own: they are checked before others are put above them. A run has a
configuration exactly if these names are sound and the names that stand in the end are
(`Invocation.resolve_of_gives`). How documents are read plays no part in this.
-/

namespace Overlay

open Text

/-! ### Sound names -/

section

variable {name : String} {cs : List Char}

theorem Text.trim_eq_nil_iff : trim cs = [] ↔ ∀ c ∈ cs, isBlank c = true := by
  rw [trim, List.reverse_eq_nil_iff, List.dropWhile_eq_nil_iff]
  simp only [List.mem_reverse]
  constructor
  · intro h
    have hnil : cs.dropWhile isBlank = [] := by
      by_contra hne
      have hfirst := List.head_dropWhile_not isBlank hne
      rw [h _ (List.head_mem hne)] at hfirst
      cases hfirst
    exact List.dropWhile_eq_nil_iff.1 hnil
  · exact fun h c hc => h c (List.dropWhile_subset _ hc)

theorem isBlankName_eq_false_iff : isBlankName name = false ↔ trim name.toList ≠ [] := by
  rw [isBlankName, ← Bool.not_eq_true, List.all_eq_true, Ne, trim_eq_nil_iff]

end

namespace Config

variable {c d : Config} {toml : DocumentReader} {text : String} {file : Setting → Option String}
  {source : Source}

/-- Both names have a character besides the white space at their ends, and they differ in more than
the case of letters. -/
structure Sound (c : Config) : Prop where
  nonblank : ∀ setting, trim (c.get setting).toList ≠ []
  apart : sameName c.redirectedSchema c.baseAlias = false

theorem check_eq_ok_iff_sound : c.check = .ok d ↔ c.Sound ∧ c = d := by
  rw [check_eq_ok_iff, isBlankName_eq_false_iff, isBlankName_eq_false_iff]
  constructor
  · rintro ⟨hredirected, halias, hapart, rfl⟩
    exact ⟨⟨fun setting => by cases setting <;> assumption, hapart⟩, rfl⟩
  · rintro ⟨⟨hnonblank, hapart⟩, rfl⟩
    exact ⟨hnonblank .redirectedSchema, hnonblank .baseAlias, hapart, rfl⟩

theorem sound_default : Sound {} :=
  (check_eq_ok_iff_sound (d := {})).1 (by decide +kernel) |>.1

theorem exists_check_eq_error (h : ¬c.Sound) : ∃ cause, c.check = .error cause := by
  cases hcheck : c.check with
  | ok d => exact absurd (check_eq_ok_iff_sound.1 hcheck).1 h
  | error cause => exact ⟨cause, rfl⟩

/-! ### Values from outside -/

/-- The configuration with these values above its own. -/
def under (c : Config) (values : Setting → Option String) : Config :=
  { redirectedSchema := (values .redirectedSchema).getD c.redirectedSchema
    baseAlias := (values .baseAlias).getD c.baseAlias }

theorem get_under (c : Config) (values : Setting → Option String) (setting : Setting) :
    (c.under values).get setting = (values setting).getD (c.get setting) := by
  cases setting <;> rfl

theorem under_under (c : Config) (file given : Setting → Option String) :
    (c.under file).under given = c.under fun setting => given setting <|> file setting := by
  have hvalue (above below : Option String) (name : String) :
      above.getD (below.getD name) = (above <|> below).getD name := by
    cases above <;> rfl
  simp only [under, hvalue]

/-- Values of the two settings. -/
def values (redirectedSchema baseAlias : Option String) : Setting → Option String
  | .redirectedSchema => redirectedSchema
  | .baseAlias => baseAlias

/-- The document has these values of the settings: each setting that stands in it is a string. -/
def Gives (toml : DocumentReader) (text : String) (values : Setting → Option String) : Prop :=
  ∃ entries, toml text = some entries ∧
    ∀ setting, entries.get? setting.key = (values setting).map fun value => .value (.string value)

theorem ofDocument_of_gives (h : Gives toml text file) :
    ofDocument text toml = .ok (under {} file) := by
  obtain ⟨entries, hread, hentries⟩ := h
  have hvalue (setting : Setting) (fallback : String) :
      settingValue entries setting fallback = .ok ((file setting).getD fallback) := by
    rw [settingValue, hentries]
    cases file setting <;> rfl
  simp only [ofDocument, hread, hvalue, ok_bind]
  rfl

/-- The documents that have such values are those that a configuration can be read from, sound or
not. -/
theorem exists_gives_iff :
    (∃ file, Gives toml text file) ↔ ∃ c, ofDocument text toml = .ok c := by
  constructor
  · rintro ⟨file, h⟩
    exact ⟨_, ofDocument_of_gives h⟩
  · rintro ⟨c, h⟩
    cases hread : toml text with
    | none => simp [ofDocument, hread] at h
    | some entries =>
      have hvalue {setting : Setting} {fallback value : String}
          (h : settingValue entries setting fallback = .ok value) :
          ∃ v : Option String, entries.get? setting.key = v.map fun v => .value (.string v) := by
        unfold settingValue at h
        split at h
        · next hget => exact ⟨none, hget⟩
        · next v hget => exact ⟨some v, hget⟩
        · cases h
      simp only [ofDocument, hread, bind_eq_ok_iff] at h
      obtain ⟨_, hredirected, _, halias, -⟩ := h
      obtain ⟨redirected, hredirected⟩ := hvalue hredirected
      obtain ⟨base, halias⟩ := hvalue halias
      exact ⟨values redirected base, entries, hread, fun setting => by cases setting <;> assumption⟩

/-- The source is a well-typed document that has these values, or no document. -/
inductive Source.Gives (toml : DocumentReader) : Source → (Setting → Option String) → Prop
  | asked {text : String} {values : Setting → Option String} (h : Config.Gives toml text values) :
      Gives toml (.asked (.ok text)) values
  | standard {text : String} {values : Setting → Option String}
      (h : Config.Gives toml text values) : Gives toml (.standard (some (.ok text))) values
  | default : Gives toml (.standard none) fun _ => none

/-- The values of a source are checked together with the defaults. -/
theorem load_of_gives (h : source.Gives toml file) :
    load source toml = (under {} file).check := by
  have hread {text : String} (h : Config.Gives toml text file) :
      read text toml = (under {} file).check := by
    rw [read, ofDocument_of_gives h, ok_bind]
  cases h with
  | asked h => exact hread h
  | standard h => exact hread h
  | default => exact (check_eq_ok_iff_sound.2 ⟨sound_default, rfl⟩).symm

end Config

/-! ### Values of a run -/

namespace CommandLine

variable {env : Environment} {before behind : Given} {command : Command}
  {toml : Config.DocumentReader} {source : Config.Source} {file : Setting → Option String}

/-- The option that has the value of a setting. -/
def Opt.ofSetting : Setting → Opt
  | .redirectedSchema => redirectedSchema
  | .baseAlias => baseAlias

/-- The value of a setting among the options before and behind the name of the command. -/
def flag (before behind : Given) (setting : Setting) : Option String :=
  behind.lookup (.ofSetting setting) <|> before.lookup (.ofSetting setting)

/-- No variable is set. -/
def Environment.unset : Environment :=
  { redirectedSchema := none, baseAlias := none, forceColour := none }

/-- The value of a setting in the environment. -/
def Environment.get : Environment → Setting → Option String
  | env, .redirectedSchema => env.redirectedSchema
  | env, .baseAlias => env.baseAlias

namespace Invocation

theorem overrides_of (config : Config) :
    (of env before behind command).overrides config =
      config.under fun setting => flag before behind setting <|> env.get setting := rfl

/-- The names of the file are checked first, then those with other values above them. -/
theorem resolve_eq_bind (hfile : source.Gives toml file) :
    (of env before behind command).resolve source toml =
      (Config.under {} file).check.mapError .load >>= fun _ =>
        (Config.under {} fun setting =>
          (flag before behind setting <|> env.get setting) <|> file setting).check.mapError
            .override := by
  have hoverrides : (of env before behind command).overrides (Config.under {} file) =
      Config.under {} fun setting =>
        (flag before behind setting <|> env.get setting) <|> file setting := by
    rw [overrides_of, Config.under_under]
  rw [resolve, Config.load_of_gives hfile, ← hoverrides]
  cases hcheck : (Config.under {} file).check with
  | error cause => rfl
  | ok config =>
    obtain ⟨-, rfl⟩ := Config.check_eq_ok_iff_sound.1 hcheck
    rfl

/-- A run has a configuration exactly if two pairs of names are sound: those of the file with the
defaults for what it leaves out, and those that the run has in the end, each from an option, else
from the environment, else from the file, else the default. The configuration is the second pair,
and a failure says what is wrong with the pair that is not sound. If there is no file, the first
pair is sound. -/
theorem resolve_of_gives (hfile : source.Gives toml file) :
    let ofFile := Config.under {} file
    let effective := Config.under {} fun setting =>
      (flag before behind setting <|> env.get setting) <|> file setting
    let outcome := (of env before behind command).resolve source toml
    ((∃ config, outcome = .ok config) ↔ ofFile.Sound ∧ effective.Sound) ∧
      (∀ config, outcome = .ok config → config = effective) ∧
      ((∃ cause, outcome = .error (.load cause)) ↔ ¬ofFile.Sound) ∧
      (∀ cause, outcome = .error (.load cause) → ofFile.check = .error cause) ∧
      ((∃ cause, outcome = .error (.override cause)) ↔ ofFile.Sound ∧ ¬effective.Sound) ∧
      (∀ cause, outcome = .error (.override cause) → effective.check = .error cause) ∧
      (source = .standard none → ofFile.Sound) := by
  intro ofFile effective outcome
  have houtcome : outcome = ofFile.check.mapError .load >>= fun _ =>
      effective.check.mapError .override := resolve_eq_bind hfile
  have hnone : source = .standard none → ofFile.Sound := by
    rintro rfl
    cases hfile
    exact Config.sound_default
  by_cases hsound : ofFile.Sound
  · rw [Config.check_eq_ok_iff_sound.2 ⟨hsound, rfl⟩] at houtcome
    by_cases heffective : effective.Sound
    · rw [Config.check_eq_ok_iff_sound.2 ⟨heffective, rfl⟩] at houtcome
      have hok : outcome = .ok effective := houtcome
      simp [hok, hsound, heffective, eq_comm]
    · obtain ⟨cause, hcause⟩ := Config.exists_check_eq_error heffective
      rw [hcause] at houtcome
      have herror : outcome = .error (.override cause) := houtcome
      simp [herror, hsound, heffective, hcause]
  · obtain ⟨cause, hcause⟩ := Config.exists_check_eq_error hsound
    rw [hcause] at houtcome
    have herror : outcome = .error (.load cause) := houtcome
    have hsource : source ≠ .standard none := fun h => hsound (hnone h)
    simp [herror, hsound, hsource, hcause]

/-- One name of the file gives way to a variable and the other to an option, and the variable for
the other to the same option. -/
theorem resolve_of_gives_mixed :
    ∃ source file, source.Gives Toml.read file ∧
      (of { Environment.unset with redirectedSchema := some "e", baseAlias := some "f" } []
        [(.baseAlias, "a")] (.check "s")).resolve source = .ok ⟨"e", "a"⟩ := by
  let env : Environment :=
    { Environment.unset with redirectedSchema := some "e", baseAlias := some "f" }
  have hdocument : Config.ofDocument "redirected_schema = \"f\"\nbase_schema_alias = \"b\"" =
      .ok ⟨"f", "b"⟩ := by
    decide +kernel
  obtain ⟨file, hgives⟩ := Config.exists_gives_iff.2 ⟨_, hdocument⟩
  have hfile : Config.under {} file = ⟨"f", "b"⟩ :=
    Except.ok.inj ((Config.ofDocument_of_gives hgives).symm.trans hdocument)
  have hsound : Config.Sound ⟨"f", "b"⟩ :=
    (Config.check_eq_ok_iff_sound (d := ⟨"f", "b"⟩).1 (by decide +kernel)).1
  have heffective : Config.Sound ⟨"e", "a"⟩ :=
    (Config.check_eq_ok_iff_sound (d := ⟨"e", "a"⟩).1 (by decide +kernel)).1
  have hsource := Config.Source.Gives.asked hgives
  obtain ⟨hok, hconfig, -⟩ :=
    @resolve_of_gives env [] [(.baseAlias, "a")] (.check "s") _ _ _ hsource
  obtain ⟨config, hresolve⟩ := hok.2 ⟨hfile ▸ hsound, heffective⟩
  have heq : config = ⟨"e", "a"⟩ := hconfig config hresolve
  exact ⟨_, _, hsource, heq ▸ hresolve⟩

/-- The names `x` and `X` of a file stand against a run with the names `x` and `y`, of which the
second comes from an option. -/
theorem resolve_refuses_overridden_names :
    ∃ text file i, text = "redirected_schema = \"x\"\nbase_schema_alias = \"X\"" ∧
      Config.Gives Toml.read text file ∧
      read .unset ["-c", "c.toml", "check", "a.schema", "--base-alias", "y"] = .ok i ∧
      i = of .unset [(.config, "c.toml")] [(.baseAlias, "y")] (.check "a.schema") ∧
      (Config.under {} fun setting => (flag [(.config, "c.toml")] [(.baseAlias, "y")] setting <|>
        Environment.unset.get setting) <|> file setting) = ⟨"x", "y"⟩ ∧
      Config.Sound ⟨"x", "y"⟩ ∧
      i.resolve (.asked (.ok text)) = .error (.load (.config .sameNames)) := by
  have hdocument : Config.ofDocument "redirected_schema = \"x\"\nbase_schema_alias = \"X\"" =
      .ok ⟨"x", "X"⟩ := by
    decide +kernel
  obtain ⟨file, hgives⟩ := Config.exists_gives_iff.2 ⟨_, hdocument⟩
  have hfile : Config.under {} file = ⟨"x", "X"⟩ :=
    Except.ok.inj ((Config.ofDocument_of_gives hgives).symm.trans hdocument)
  have heffective : (Config.under {} fun setting =>
      (flag [(.config, "c.toml")] [(.baseAlias, "y")] setting <|>
        Environment.unset.get setting) <|> file setting) = ⟨"x", "y"⟩ := by
    rw [← Config.under_under, hfile]
    rfl
  have hsound : Config.Sound ⟨"x", "y"⟩ :=
    (Config.check_eq_ok_iff_sound (d := ⟨"x", "y"⟩).1 (by decide +kernel)).1
  have hsame : sameName "x" "X" = true := by
    rw [sameName_iff, ← String.toList_inj, toList_toLower, toList_toLower]
    decide
  have hcheck : Config.check ⟨"x", "X"⟩ = .error (.config .sameNames) := by
    rw [Config.check, hsame]
    rfl
  refine ⟨_, file, _, rfl, hgives, by decide +kernel, rfl, heffective, hsound, ?_⟩
  rw [resolve, Config.load_of_gives (.asked hgives), hfile, hcheck]
  rfl

end Invocation

end CommandLine

end Overlay
