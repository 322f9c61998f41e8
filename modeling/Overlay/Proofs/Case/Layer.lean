import Overlay.Layer.Definition
import Overlay.Proofs.Case.Plan
import Overlay.Proofs.Case.Schema

/-!
# Layers in lower case

The layers of two schemas that are equal up to the case of their names have texts that are equal up
to case, and where the one has no layer the other has none for the same reason
(`Schema.same_of_lower_eq`).
-/

namespace Overlay

open Text

/-! ### Names in lower case -/

/-- The configuration with both names in lower case. -/
def Config.lower (c : Config) : Config :=
  { redirectedSchema := c.redirectedSchema.toLower, baseAlias := c.baseAlias.toLower }

/-- The layer with all names and texts in lower case. -/
def Layer.lower (l : Layer PlanText) : Layer PlanText :=
  { schema := l.schema.toLower
    name := l.name.toLower
    columns := l.columns.map Column.lower
    primaryKey := l.primaryKey.map String.toLower
    plan := l.plan.lower
    redirectedSchema := l.redirectedSchema.toLower
    shadow := l.shadow.lower }

theorem Column.lower_lower (c : Column) : c.lower.lower = c.lower := by
  simp [lower]

theorem Dependent.lower_lower (d : Dependent) : d.lower.lower = d.lower := by
  simp [lower, Relation.lower, Function.comp_def]

/-! ### The layer of a table -/

section

variable {s : Schema} {config : Config} {t owner : Table} {fk : ForeignKey} {key : List String}
  {source views name : String}

theorem Column.shadow_lower (c : Column) :
    c.lower.shadow (key.map String.toLower) = (c.shadow key).lower := by
  have hkey : keyNames (key.map String.toLower) c.lower.name = keyNames key c.name := keyNames_lower
  unfold shadow
  rw [hkey]
  split <;> rfl

theorem toLower_shadowName_toLower (name : String) :
    (shadowName name.toLower).toLower = (shadowName name).toLower := by
  simp [shadowName]

theorem Table.lower_shadow_lower :
    (t.lower.shadow (key.map String.toLower)).lower = (t.shadow key).lower := by
  have hcolumns : (t.lower.columns.map (Column.shadow (key.map String.toLower))).map Column.lower =
      (t.columns.map (Column.shadow key)).map Column.lower := by
    simp only [lower, List.map_map, Function.comp_def, Column.shadow_lower, Column.lower_lower]
  have hname : (shadowName t.lower.name).toLower = (shadowName t.name).toLower :=
    toLower_shadowName_toLower t.name
  have hkey : (key.map String.toLower).map String.toLower = key.map String.toLower := by
    simp [Function.comp_def]
  unfold shadow
  simp only [lower, List.map_append, Option.map_some, hkey] at hcolumns hname ⊢
  rw [hcolumns, hname]

theorem Dependent.of_lower :
    of source.toLower views.toLower owner.lower fk.lower = (of source views owner fk).lower := by
  have hkey : owner.lower.rowKey?.isSome = owner.rowKey?.isSome := by
    rw [Table.rowKey?_lower, Option.isSome_map]
  unfold of
  rw [hkey]
  simp only [lower, Relation.lower, Dependent.mk.injEq, Relation.mk.injEq]
  refine ⟨rfl, ⟨?_, rfl⟩, List.zip_map⟩
  split <;> rfl

theorem Table.lower_redirection_lower :
    (t.lower.redirection config.lower s.lower (key.map String.toLower)).lower =
      (t.redirection config s key).lower := by
  have hcolumns : t.lower.columnNames.map String.toLower = t.columnNames.map String.toLower := by
    simp [columnNames, lower, Column.lower, Function.comp_def]
  have hdependents :
      (t.lower.redirection config.lower s.lower (key.map String.toLower)).lower.dependents =
        (t.redirection config s key).lower.dependents := by
    change ((s.lower.referencing t.name.toLower).map _).map Dependent.lower =
      ((s.referencing t.name).map _).map Dependent.lower
    rw [Schema.referencing_lower, List.map_map, List.map_map, List.map_map]
    apply List.map_congr_left
    intro reference _
    exact (congrArg Dependent.lower Dependent.of_lower).trans (Dependent.lower_lower _)
  have hkey : (key.map String.toLower).map String.toLower = key.map String.toLower := by
    simp [Function.comp_def]
  have hbase : Relation.lower ⟨s.lower.name, t.lower.name⟩ = Relation.lower ⟨s.name, t.name⟩ := by
    simp [Relation.lower, Schema.lower, lower]
  have hshadow : Relation.lower ⟨config.lower.redirectedSchema, shadowName t.lower.name⟩ =
      Relation.lower ⟨config.redirectedSchema, shadowName t.name⟩ := by
    simp [Relation.lower, Config.lower, lower, toLower_shadowName_toLower]
  rw [Redirection.mk.injEq]
  exact ⟨hcolumns, hkey, hbase, hshadow, hdependents⟩

theorem Table.lower_layer_lower :
    (t.lower.layer config.lower s.lower (key.map String.toLower)).written.lower =
      (t.layer config s key).written.lower := by
  have hplan : (t.lower.redirection config.lower s.lower (key.map String.toLower)).plan.text.lower =
      (t.redirection config s key).plan.text.lower := by
    rw [← Redirection.lower_text_plan, lower_redirection_lower, Redirection.lower_text_plan]
  have hcolumns : t.lower.columns.map Column.lower = t.columns.map Column.lower := by
    simp [lower, Column.lower_lower, Function.comp_def]
  unfold layer Layer.written Layer.lower
  simp only [hplan, hcolumns, lower_shadow_lower]
  simp [lower, Config.lower, Function.comp_def]

/-! ### Layers of schemas -/

/-- Two outcomes are equal in lower case if the steps that lead to them are. -/
theorem lowerOutcome_bind_congr {α β γ δ ε : Type} {f : α → β} {g : γ → ε} {g' : δ → ε}
    {x : Except Error α} {x' : Except Error β} {k : α → Except Error γ} {k' : β → Except Error δ}
    (hx : x' = lowerOutcome f x) (hk : ∀ a, lowerOutcome g' (k' (f a)) = lowerOutcome g (k a)) :
    lowerOutcome g' (x' >>= k') = lowerOutcome g (x >>= k) := by
  subst hx
  cases x with
  | error e => exact congrArg Except.error e.lower_lower
  | ok a => exact hk a

theorem Schema.lowerOutcome_layer_lower :
    lowerOutcome (fun l => l.written.lower) (s.lower.layer config.lower name.toLower) =
      lowerOutcome (fun l => l.written.lower) (s.layer config name) := by
  unfold layer
  rw [table?_lower]
  cases s.table? name with
  | none => exact congrArg Except.error (Error.lower_lower (.unknownTable name))
  | some t =>
    simp only [Option.map_some, Table.rowKey?_lower]
    cases t.rowKey? with
    | none => exact congrArg Except.error (Error.lower_lower (.missingPrimaryKey t.name))
    | some key =>
      refine lowerOutcome_bind_congr validateTable_lower fun _ => ?_
      refine lowerOutcome_bind_congr (f := id) ?_ fun _ => congrArg Except.ok Table.lower_layer_lower
      change (s.lower.referencing t.name.toLower).forM _ = _
      rw [referencing_lower]
      exact forM_eq_lowerOutcome fun _ => validateTable_lower

theorem lowerOutcome_mapM {α β γ : Type} (f : α → β) (l : List γ) (step : γ → Except Error α) :
    lowerOutcome (List.map f) (l.mapM step) = l.mapM fun c => lowerOutcome f (step c) := by
  have hsteps : (l.map id).mapM (fun c => lowerOutcome f (step c)) =
      lowerOutcome (List.map f) (l.mapM step) := mapM_eq_lowerOutcome fun _ => rfl
  rw [← hsteps, List.map_id]

theorem Schema.lowerOutcome_layers_lower :
    lowerOutcome (List.map fun l => l.written.lower) (s.lower.layers config.lower) =
      lowerOutcome (List.map fun l => l.written.lower) (s.layers config) := by
  unfold layers
  rw [lowerOutcome_mapM, lowerOutcome_mapM, lower, List.mapM_map]
  exact congrArg (List.mapM · s.tables) (funext fun t => lowerOutcome_layer_lower)

end

/-! ### Definition texts -/

theorem toLower_columnBlock_lower (columns : List Column) (key : Option (List String)) :
    (columnBlock (columns.map Column.lower) (key.map (List.map String.toLower))).toLower =
      (columnBlock columns key).toLower := by
  have hcolumn (c : Column) :
      (c.lower.definition (key.map (List.map String.toLower))).toLower =
        (c.definition key).toLower := by
    have hkey : (key.map (List.map String.toLower)).any (keyNames · c.lower.name) =
        key.any (keyNames · c.name) := by
      cases key with
      | none => rfl
      | some key => exact keyNames_lower
    unfold Column.definition
    rw [hkey]
    simp [Column.lower]
  have hkeyLine (key : List String) :
      (keyDefinition (key.map String.toLower)).toLower = (keyDefinition key).toLower := by
    unfold keyDefinition
    simp only [toLower_append, toLower_columnList_map_toLower]
  unfold columnBlock
  rw [toLower_intercalate, toLower_intercalate]
  simp only [List.map_append, List.map_map]
  congr 2
  · exact List.map_congr_left fun c _ => hcolumn c
  · cases key with
    | none => rfl
    | some key => exact congrArg (fun line => [line]) (hkeyLine key)

namespace Layer

variable (l : Layer PlanText)

theorem toLower_shadowDefinition_lower :
    l.lower.shadowDefinition.toLower = l.shadowDefinition.toLower := by
  unfold shadowDefinition lower
  simp only [toLower_append, Table.lower, toLower_columnBlock_lower, toLower_toLower]

theorem toLower_viewDefinition_lower :
    l.lower.viewDefinition.toLower = l.viewDefinition.toLower := by
  have hview : l.lower.viewStatement.toLower = l.viewStatement.toLower := by
    have hblock : (columnBlock l.lower.columns (some l.lower.primaryKey)).toLower =
        (columnBlock l.columns (some l.primaryKey)).toLower :=
      toLower_columnBlock_lower l.columns (some l.primaryKey)
    unfold viewStatement
    simp only [toLower_append, hblock]
    simp only [lower, PlanText.lower, toLower_toLower]
  have htrigger (event body : String) :
      (l.lower.triggerStatement event body.toLower).toLower =
        (l.triggerStatement event body).toLower := by
    unfold triggerStatement
    simp only [toLower_append, lower, toLower_toLower]
  have hplan : l.lower.plan = l.plan.lower := rfl
  unfold viewDefinition viewStatements
  rw [toLower_intercalate, toLower_intercalate]
  simp only [List.map_cons, List.map_nil, hview, hplan, PlanText.lower, htrigger]

end Layer

theorem toLower_schemaDefinition_lower (config : Config) (layers : List (Layer PlanText)) :
    (schemaDefinition config.lower (layers.map Layer.lower)).toLower =
      (schemaDefinition config layers).toLower := by
  have hstatement (schema : String) :
      (schemaStatement schema.toLower).toLower = (schemaStatement schema).toLower := by
    unfold schemaStatement
    simp
  unfold schemaDefinition
  rw [toLower_intercalate, toLower_intercalate]
  simp only [List.map_append, List.map_cons, List.map_map, Function.comp_def,
    Layer.toLower_shadowDefinition_lower, Layer.toLower_viewDefinition_lower, Config.lower,
    hstatement]

/-! ### Schemas that are equal up to case -/

/-- Both outcomes are results that are related, or errors of one kind with messages that are equal
up to case. -/
inductive SameOutcome {α β : Type} (related : α → β → Prop) :
    Except Error α → Except Error β → Prop where
  | ok {a : α} {b : β} (h : related a b) : SameOutcome related (.ok a) (.ok b)
  | error {e e' : Error} (hkind : e.kind = e'.kind)
      (hmessage : sameName e.message e'.message = true) : SameOutcome related (.error e) (.error e')

theorem SameOutcome.of_lowerOutcome_eq {α β γ : Type} {related : α → β → Prop} {f : α → γ}
    {g : β → γ} {x : Except Error α} {y : Except Error β}
    (h : lowerOutcome f x = lowerOutcome g y) (hrelated : ∀ a b, f a = g b → related a b) :
    SameOutcome related x y := by
  cases x with
  | ok a =>
    cases y with
    | ok b => exact .ok (hrelated a b (Except.ok.inj h))
    | error e => cases h
  | error e =>
    cases y with
    | ok b => cases h
    | error e' =>
      have hlower : e.lower = e'.lower := Except.error.inj h
      refine .error ?_ (sameName_iff.2 ?_)
      · rw [← e.kind_lower, hlower, e'.kind_lower]
      · rw [← e.toLower_message_lower, hlower, e'.toLower_message_lower]

theorem forall₂_of_map_eq {α β γ : Type} {f : α → γ} {g : β → γ} {as : List α} {bs : List β}
    (h : as.map f = bs.map g) : List.Forall₂ (fun a b => f a = g b) as bs := by
  have heq : List.Forall₂ (· = ·) (as.map f) (bs.map g) := by
    rw [List.forall₂_eq_eq_eq]
    exact h
  rwa [List.forall₂_map_left_iff, List.forall₂_map_right_iff] at heq

/-- All texts that are generated for two layers are equal up to case. -/
structure Layer.SameTexts (l l' : Layer Plan) : Prop where
  select : sameName l.plan.text.select l'.plan.text.select = true
  insert : sameName l.plan.text.insert l'.plan.text.insert = true
  update : sameName l.plan.text.update l'.plan.text.update = true
  delete : sameName l.plan.text.delete l'.plan.text.delete = true
  shadowDefinition : sameName l.shadowDefinition l'.shadowDefinition = true
  viewDefinition : sameName l.written.viewDefinition l'.written.viewDefinition = true

theorem Layer.SameTexts.of_lower_eq {l l' : Layer Plan} (h : l.written.lower = l'.written.lower) :
    l.SameTexts l' := by
  have hplan : l.plan.text.lower = l'.plan.text.lower := congrArg Layer.plan h
  have hshadow : l.written.shadowDefinition.toLower = l'.written.shadowDefinition.toLower := by
    rw [← toLower_shadowDefinition_lower, h, toLower_shadowDefinition_lower]
  have hview : l.written.viewDefinition.toLower = l'.written.viewDefinition.toLower := by
    rw [← toLower_viewDefinition_lower, h, toLower_viewDefinition_lower]
  constructor <;> apply sameName_iff.2
  · exact congrArg PlanText.select hplan
  · exact congrArg PlanText.insert hplan
  · exact congrArg PlanText.update hplan
  · exact congrArg PlanText.delete hplan
  · exact hshadow
  · exact hview

/-- Whatever is done with the two schemas, for the two configurations, has the same outcome. -/
structure Schema.SameOutcomes (s s' : Schema) (config config' : Config) : Prop where
  resolve : SameOutcome (fun r r' => r.lower = r'.lower) s.resolve s'.resolve
  validate : SameOutcome (fun _ _ => True) s.validate s'.validate
  layer : ∀ name name', sameName name name' = true →
    SameOutcome Layer.SameTexts (s.layer config name) (s'.layer config' name')
  layers : SameOutcome
    (fun ls ls' => List.Forall₂ Layer.SameTexts ls ls' ∧
      sameName (schemaDefinition config (ls.map Layer.written))
        (schemaDefinition config' (ls'.map Layer.written)) = true)
    (s.layers config) (s'.layers config')
  survey : List.Forall₂
    (fun entry entry' => entry.1.lower = entry'.1.lower ∧
      SameOutcome Layer.SameTexts entry.2 entry'.2)
    (s.survey config) (s'.survey config')

/-- Schemas whose names are equal up to case have the same outcomes. -/
theorem Schema.same_of_lower_eq {s s' : Schema} {config config' : Config}
    (hs : s.lower = s'.lower)
    (hredirected : sameName config.redirectedSchema config'.redirectedSchema = true)
    (halias : sameName config.baseAlias config'.baseAlias = true) :
    s.SameOutcomes s' config config' := by
  have hconfig : config.lower = config'.lower := by
    rw [Config.lower, sameName_iff.1 hredirected, sameName_iff.1 halias, Config.lower]
  have hlayer (name name' : String) (hname : sameName name name' = true) :
      SameOutcome Layer.SameTexts (s.layer config name) (s'.layer config' name') := by
    refine .of_lowerOutcome_eq ?_ fun l l' => Layer.SameTexts.of_lower_eq
    rw [← lowerOutcome_layer_lower, hs, hconfig, sameName_iff.1 hname, lowerOutcome_layer_lower]
  refine ⟨?_, ?_, hlayer, ?_, ?_⟩
  · refine .of_lowerOutcome_eq (f := lower) (g := lower) ?_ fun _ _ => id
    rw [← resolve_lower, hs, resolve_lower]
  · refine .of_lowerOutcome_eq (f := id) (g := id) ?_ fun _ _ _ => trivial
    rw [← validate_lower, hs, validate_lower]
  · refine .of_lowerOutcome_eq (f := List.map fun l => l.written.lower)
      (g := List.map fun l => l.written.lower) ?_ fun ls ls' hls => ⟨?_, ?_⟩
    · rw [← lowerOutcome_layers_lower, hs, hconfig, lowerOutcome_layers_lower]
    · exact (forall₂_of_map_eq hls).imp fun l l' => Layer.SameTexts.of_lower_eq
    · have hwritten : (ls.map Layer.written).map Layer.lower =
          (ls'.map Layer.written).map Layer.lower := by
        rw [List.map_map, List.map_map]
        exact hls
      apply sameName_iff.2
      rw [← toLower_schemaDefinition_lower, hconfig, hwritten, toLower_schemaDefinition_lower]
  · have htables : s.tables.map Table.lower = s'.tables.map Table.lower :=
      congrArg Schema.tables hs
    rw [survey, survey, List.forall₂_map_left_iff, List.forall₂_map_right_iff]
    apply (forall₂_of_map_eq htables).imp
    intro t t' ht
    exact ⟨ht, hlayer t.name t'.name (sameName_iff.2 (congrArg Table.name ht))⟩

/-- A table that refers to itself by its only column. -/
def Schema.selfReferring (schema table column : String) : Schema :=
  { name := schema
    tables :=
      [{ name := table
         columns := [{ name := column, type := .integer, nullable := false }]
         primaryKey := some [column]
         foreignKeys := [{ columns := [column], target := table, targetColumns := [column] }] }] }

theorem Schema.same_of_lower_eq_selfReferring :
    ∃ l l', (selfReferring "S" "T" "K").layer { baseAlias := "V" } "t" = .ok l ∧
      (selfReferring "s" "t" "k").layer { baseAlias := "v" } "t" = .ok l' ∧ l.SameTexts l' := by
  have hlower (upper lower : String) (h : upper.toList.map Char.toLower = lower.toList) :
      upper.toLower = lower := toLower_eq_iff_toList.2 h
  have hs : (selfReferring "S" "T" "K").lower = (selfReferring "s" "t" "k").lower := by
    simp [selfReferring, Schema.lower, Table.lower, Column.lower, ForeignKey.lower,
      hlower "S" "s" (by decide), hlower "T" "t" (by decide), hlower "K" "k" (by decide),
      hlower "s" "s" (by decide), hlower "t" "t" (by decide), hlower "k" "k" (by decide)]
  have halias : sameName "V" "v" = true := by
    rw [sameName_iff, hlower "V" "v" (by decide), hlower "v" "v" (by decide)]
  have hok : ((selfReferring "s" "t" "k").layer { baseAlias := "v" } "t").isOk = true := by
    decide +kernel
  have hsame : SameOutcome Layer.SameTexts
      ((selfReferring "S" "T" "K").layer { baseAlias := "V" } "t")
      ((selfReferring "s" "t" "k").layer { baseAlias := "v" } "t") :=
    (same_of_lower_eq hs (sameName_refl "redirected") halias).layer "t" "t" (sameName_refl "t")
  generalize (selfReferring "S" "T" "K").layer { baseAlias := "V" } "t" = x at *
  generalize (selfReferring "s" "t" "k").layer { baseAlias := "v" } "t" = y at *
  cases hsame with
  | ok h => exact ⟨_, _, rfl, rfl, h⟩
  | error _ _ => cases hok

end Overlay
