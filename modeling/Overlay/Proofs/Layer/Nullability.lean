import Overlay.Proofs.Layer.Blocks

/-!
# Nullable key columns

Whether a column of a primary key is said to be nullable makes no difference to what is generated.
The schema in which no key column is nullable (`Schema.marked`) answers every look-up as the schema
does and passes the same checks, and the texts of its layers are the same
(`Schema.sameTexts_of_marked_eq`).
-/

namespace Overlay

open Text

/-- The table with its key columns marked as not nullable. -/
def Table.marked (t : Table) : Table :=
  { t with columns := t.columns.map (Column.shadow (t.primaryKey.getD [])) }

/-- The schema with all key columns marked as not nullable. -/
def Schema.marked (s : Schema) : Schema :=
  { s with tables := s.tables.map Table.marked }

/-! ### Texts of layers -/

/-- What is generated for a table: the texts of its plan, the definition of its shadow table and
that of its view. -/
structure LayerTexts where
  plan : PlanText
  shadow : String
  view : String
  deriving DecidableEq, Repr

/-- The texts that are generated for a layer. -/
def Layer.texts (l : Layer Plan) : LayerTexts :=
  { plan := l.plan.text, shadow := l.shadowDefinition, view := l.written.viewDefinition }

/-- The texts that are generated for a schema: those of its layers and the definitions of both
schemas. -/
def layersTexts (config : Config) (ls : List (Layer Plan)) : List LayerTexts × String :=
  (ls.map Layer.texts, schemaDefinition config (ls.map Layer.written))

/-- The definitions of both schemas are put together from the texts of the layers. -/
theorem layersTexts_congr {config : Config} {ls ls' : List (Layer Plan)}
    (h : ls.map Layer.texts = ls'.map Layer.texts) :
    layersTexts config ls = layersTexts config ls' := by
  have hshadow : (ls.map Layer.written).map Layer.shadowDefinition =
      (ls'.map Layer.written).map Layer.shadowDefinition := by
    have hmap := congrArg (List.map LayerTexts.shadow) h
    rw [List.map_map, List.map_map] at hmap ⊢
    exact hmap
  have hview : (ls.map Layer.written).map Layer.viewDefinition =
      (ls'.map Layer.written).map Layer.viewDefinition := by
    have hmap := congrArg (List.map LayerTexts.view) h
    rw [List.map_map, List.map_map] at hmap ⊢
    exact hmap
  unfold layersTexts schemaDefinition
  rw [h, hshadow, hview]

/-- For both schemas the same texts are generated for every table and for all tables, or the same
error stands against it. -/
structure Schema.SameTexts (s s' : Schema) (config : Config) : Prop where
  layer : ∀ name, (s.layer config name).map Layer.texts = (s'.layer config name).map Layer.texts
  layers : (s.layers config).map (layersTexts config) = (s'.layers config).map (layersTexts config)

section

variable {s s' : Schema} {t owner : Table} {c : Column} {fk : ForeignKey} {name : String}
  {key : List String} {config : Config}

/-! ### Look-ups -/

theorem Table.columnNames_marked (t : Table) : t.marked.columnNames = t.columnNames := by
  simp [columnNames, marked]

theorem Table.column?_marked :
    t.marked.column? name = (t.column? name).map (Column.shadow (t.primaryKey.getD [])) := by
  simp only [column?, marked, List.find?_map, Function.comp_def, Column.name_shadow]

theorem Schema.table?_marked : s.marked.table? name = (s.table? name).map Table.marked := by
  simp only [table?, marked, List.find?_map]
  rfl

theorem Schema.referencing_marked :
    s.marked.referencing name = (s.referencing name).map (Prod.map Table.marked id) := by
  simp only [referencing, marked, List.flatMap_map, List.map_flatMap, List.map_map]
  rfl

/-! ### Checks -/

theorem Table.discard_requireColumn_marked (t : Table) (name : String) :
    discard (t.marked.requireColumn name) = discard (t.requireColumn name) := by
  rw [requireColumn, column?_marked, requireColumn]
  cases t.column? name <;> rfl

theorem Table.checkKeyColumn_marked (t : Table) (name : String) :
    t.marked.checkKeyColumn name = t.checkKeyColumn name := by
  unfold checkKeyColumn requireColumn
  rw [column?_marked]
  cases t.column? name with
  | none => rfl
  | some c =>
    simp only [Option.map_some, ok_bind, Column.name_shadow, Column.type_shadow]
    rfl

theorem Table.checkPrimaryKey_marked (t : Table) :
    t.marked.checkPrimaryKey = t.checkPrimaryKey := by
  have hcheck : t.marked.checkKeyColumn = t.checkKeyColumn := funext t.checkKeyColumn_marked
  unfold checkPrimaryKey
  rw [hcheck]
  rfl

theorem Table.checkForeignKey_marked (s : Schema) (t : Table) (fk : ForeignKey) :
    t.marked.checkForeignKey s.marked fk = t.checkForeignKey s fk := by
  unfold checkForeignKey
  rw [Schema.table?_marked]
  cases s.table? fk.target with
  | none => rfl
  | some target =>
    simp only [Option.map_some, discard_requireColumn_marked]
    rfl

theorem Schema.validateTable_marked (s : Schema) (t : Table) :
    s.marked.validateTable t.marked = s.validateTable t := by
  have hcheck : t.marked.checkForeignKey s.marked = t.checkForeignKey s :=
    funext (t.checkForeignKey_marked s)
  unfold validateTable
  rw [t.checkPrimaryKey_marked, hcheck]
  rfl

theorem Schema.validate_marked (s : Schema) : s.marked.validate = s.validate := by
  unfold validate
  change (s.tables.map Table.marked).forM _ = _
  rw [List.forM_eq_forM, List.forM_map]
  exact congrArg (forM s.tables) (funext s.validateTable_marked)

theorem Schema.wellKeyed_marked_iff : s.marked.WellKeyed ↔ s.WellKeyed := by
  rw [← validate_eq_ok_iff_wellKeyed, validate_marked, validate_eq_ok_iff_wellKeyed]

/-! ### Layers -/

theorem Table.redirection_marked (config : Config) (s : Schema) (t : Table) (key : List String) :
    t.marked.redirection config s.marked key = t.redirection config s key := by
  have hdependents : (t.marked.redirection config s.marked key).dependents =
      (t.redirection config s key).dependents := by
    change (s.marked.referencing t.name).map _ = (s.referencing t.name).map _
    rw [Schema.referencing_marked, List.map_map]
    rfl
  rw [Redirection.mk.injEq]
  exact ⟨t.columnNames_marked, rfl, rfl, rfl, hdependents⟩

theorem Table.definitions_marked (hkey : t.primaryKey = some key) :
    t.marked.columns.map (Column.definition (some key)) =
      t.columns.map (Column.definition (some key)) := by
  unfold marked
  rw [hkey, Option.getD_some, List.map_map]
  exact List.map_congr_left fun c _ => c.definition_shadow key

theorem Layer.shadowDefinition_congr {π : Type} {l l' : Layer π}
    (hname : l'.shadow.name = l.shadow.name)
    (hblock : columnBlock l'.shadow.columns l'.shadow.primaryKey =
      columnBlock l.shadow.columns l.shadow.primaryKey) :
    l'.shadowDefinition = l.shadowDefinition := by
  unfold shadowDefinition
  rw [hname, hblock]

theorem Layer.viewDefinition_congr {l l' : Layer PlanText} (hname : l'.name = l.name)
    (hblock : columnBlock l'.columns (some l'.primaryKey) =
      columnBlock l.columns (some l.primaryKey))
    (hplan : l'.plan = l.plan) : l'.viewDefinition = l.viewDefinition := by
  unfold viewDefinition viewStatements viewStatement triggerStatement
  rw [hname, hblock, hplan]

/-- Marking the columns of the key changes no text of the layer. -/
theorem Table.texts_layer_marked (config : Config) (s : Schema) (hkey : t.primaryKey = some key) :
    (t.marked.layer config s.marked key).texts = (t.layer config s key).texts := by
  have hlines := t.definitions_marked hkey
  have hplan : (t.marked.layer config s.marked key).plan = (t.layer config s key).plan :=
    congrArg Redirection.plan (t.redirection_marked config s key)
  have hshadow : (t.marked.layer config s.marked key).shadowDefinition =
      (t.layer config s key).shadowDefinition := by
    refine Layer.shadowDefinition_congr rfl ?_
    change columnBlock (t.marked.shadow key).columns (t.marked.shadow key).primaryKey =
      columnBlock (t.shadow key).columns (t.shadow key).primaryKey
    rw [columnBlock_shadow, columnBlock_shadow, hlines]
  have hview : (t.marked.layer config s.marked key).written.viewDefinition =
      (t.layer config s key).written.viewDefinition := by
    refine Layer.viewDefinition_congr rfl ?_ (congrArg Plan.text hplan)
    change columnBlock t.marked.columns (some key) = columnBlock t.columns (some key)
    rw [columnBlock_some, columnBlock_some, hlines]
  unfold Layer.texts
  rw [hplan, hshadow, hview]

theorem Schema.forM_referencing_marked (s : Schema) (name : String) :
    (s.marked.referencing name).forM (s.marked.validateTable ·.1) =
      (s.referencing name).forM (s.validateTable ·.1) := by
  rw [referencing_marked, List.forM_eq_forM, List.forM_map]
  exact congrArg (forM (s.referencing name))
    (funext fun reference => s.validateTable_marked reference.1)

/-- The texts of a layer do not depend on whether the columns of the key are said to be nullable. -/
theorem Schema.texts_layer_marked (s : Schema) (config : Config) (name : String) :
    (s.marked.layer config name).map Layer.texts = (s.layer config name).map Layer.texts := by
  have hmarked (t : Table) : t.marked.rowKey? = t.rowKey? := rfl
  have hfound : s.marked.table? name = (s.table? name).map Table.marked := s.table?_marked
  cases htable : s.table? name with
  | none =>
    rw [htable, Option.map_none] at hfound
    rw [layer_of_table?_eq_none hfound, layer_of_table?_eq_none htable]
  | some t =>
    rw [htable, Option.map_some] at hfound
    cases hkey : t.rowKey? with
    | none =>
      rw [layer_of_rowKey?_eq_none hfound ((hmarked t).trans hkey),
        layer_of_rowKey?_eq_none htable hkey]
      rfl
    | some key =>
      have htexts := t.texts_layer_marked config s (Table.rowKey?_eq_some_iff.1 hkey).1
      have howners : (s.marked.referencing t.marked.name).forM (s.marked.validateTable ·.1) =
          (s.referencing t.name).forM (s.validateTable ·.1) := s.forM_referencing_marked t.name
      rw [layer_of_rowKey?_eq_some config hfound ((hmarked t).trans hkey),
        layer_of_rowKey?_eq_some config htable hkey, validateTable_marked, howners]
      cases s.validateTable t with
      | error e => rfl
      | ok _ =>
        cases (s.referencing t.name).forM (s.validateTable ·.1) with
        | error e => rfl
        | ok _ => exact congrArg Except.ok htexts

theorem Schema.texts_layers_marked (s : Schema) (config : Config) :
    (s.marked.layers config).map (List.map Layer.texts) =
      (s.layers config).map (List.map Layer.texts) := by
  unfold layers
  rw [map_mapM, map_mapM]
  change (s.tables.map Table.marked).mapM _ = _
  rw [List.mapM_map]
  exact congrArg (List.mapM · s.tables) (funext fun t => s.texts_layer_marked config t.name)

/-- Schemas that differ at most in which key columns are said to be nullable have the same texts. -/
theorem Schema.sameTexts_of_marked_eq (h : s.marked = s'.marked) (config : Config) :
    s.SameTexts s' config where
  layer name := by rw [← texts_layer_marked, h, texts_layer_marked]
  layers := by
    have htexts : (s.layers config).map (List.map Layer.texts) =
        (s'.layers config).map (List.map Layer.texts) := by
      rw [← texts_layers_marked, h, texts_layers_marked]
    exact map_eq_map_of_map_eq (fun _ _ => layersTexts_congr) htexts

end

end Overlay
