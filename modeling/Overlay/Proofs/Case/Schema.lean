import Overlay.Proofs.Case.Text
import Overlay.Proofs.Sequence
import Overlay.Schema.Reference
import Overlay.Schema.Validity

/-!
# Schemas in lower case

A schema with all its names in lower case (`Schema.lower`) answers every look-up as the schema does,
and resolving and checking it have the same outcome, in lower case.
-/

namespace Overlay

open Text

/-! ### Names in lower case -/

/-- The column with its name in lower case. -/
def Column.lower (c : Column) : Column :=
  { c with name := c.name.toLower }

/-- The foreign key with all names in lower case. -/
def ForeignKey.lower (fk : ForeignKey) : ForeignKey :=
  { columns := fk.columns.map String.toLower
    target := fk.target.toLower
    targetColumns := fk.targetColumns.map String.toLower }

/-- The table with all names in lower case. -/
def Table.lower (t : Table) : Table :=
  { name := t.name.toLower
    columns := t.columns.map Column.lower
    primaryKey := t.primaryKey.map (List.map String.toLower)
    foreignKeys := t.foreignKeys.map ForeignKey.lower }

/-- The schema with all names in lower case. -/
def Schema.lower (s : Schema) : Schema :=
  { name := s.name.toLower, tables := s.tables.map Table.lower }

/-- The fault with its names in lower case. -/
def KeyFault.lower : KeyFault → KeyFault
  | empty => empty
  | cannotIdentifyRow column type => cannotIdentifyRow column.toLower type

/-- The fault with its names in lower case. -/
def ReferenceFault.lower : ReferenceFault → ReferenceFault
  | missingTarget target => missingTarget target.toLower
  | targetWithoutKey target => targetWithoutKey target.toLower
  | lengths columns targetColumns => lengths columns targetColumns

/-- The error with the names of tables and columns in lower case. -/
def Error.lower : Error → Error
  | missingPrimaryKey table => missingPrimaryKey table.toLower
  | unknownTable name => unknownTable name.toLower
  | unknownColumn table column => unknownColumn table.toLower column.toLower
  | primaryKey table fault => primaryKey table.toLower fault.lower
  | foreignKey table fault => foreignKey table.toLower fault.lower
  | e => e

/-! ### Errors -/

/-- The kinds of errors, whatever names they hold. -/
inductive ErrorKind where
  | missingPrimaryKey
  | unknownTable
  | unknownColumn
  | primaryKey
  | foreignKey
  | text
  | config
  | file
  deriving DecidableEq, Repr

namespace Error

def kind : Error → ErrorKind
  | missingPrimaryKey _ => .missingPrimaryKey
  | unknownTable _ => .unknownTable
  | unknownColumn _ _ => .unknownColumn
  | primaryKey _ _ => .primaryKey
  | foreignKey _ _ => .foreignKey
  | text _ _ => .text
  | config _ => .config
  | file _ => .file

theorem kind_lower (e : Error) : e.lower.kind = e.kind := by
  cases e <;> rfl

theorem lower_lower (e : Error) : e.lower.lower = e.lower := by
  cases e with
  | primaryKey table fault => cases fault <;> simp [lower, KeyFault.lower]
  | foreignKey table fault => cases fault <;> simp [lower, ReferenceFault.lower]
  | _ => simp [lower]

theorem toLower_message_lower (e : Error) : e.lower.message.toLower = e.message.toLower := by
  cases e with
  | missingPrimaryKey table => unfold lower message; simp
  | unknownTable name => unfold lower message; simp
  | unknownColumn table column => unfold lower message; simp
  | primaryKey table fault =>
    have hfault : fault.lower.message.toLower = fault.message.toLower := by
      cases fault <;> unfold KeyFault.lower KeyFault.message <;> simp
    unfold lower message
    simp [hfault]
  | foreignKey table fault =>
    have hfault : fault.lower.message.toLower = fault.message.toLower := by
      cases fault <;> unfold ReferenceFault.lower ReferenceFault.message <;> simp
    unfold lower message
    simp [hfault]
  | text line fault => rfl
  | config fault => rfl
  | file fault => rfl

end Error

/-! ### Outcomes in lower case -/

/-- The outcome with its error in lower case and its result changed by `f`. -/
def lowerOutcome {α β : Type} (f : α → β) : Except Error α → Except Error β
  | .ok a => .ok (f a)
  | .error e => .error e.lower

section

variable {α β γ δ : Type} {f : α → β} {g : γ → δ}

theorem bind_eq_lowerOutcome {x : Except Error α} {x' : Except Error β}
    {k : α → Except Error γ} {k' : β → Except Error δ} (hx : x' = lowerOutcome f x)
    (hk : ∀ a, k' (f a) = lowerOutcome g (k a)) : (x' >>= k') = lowerOutcome g (x >>= k) := by
  subst hx
  cases x with
  | error e => rfl
  | ok a => exact hk a

theorem mapM_eq_lowerOutcome {l : List γ} {h : γ → δ} {step : γ → Except Error α}
    {step' : δ → Except Error β} (hstep : ∀ c, step' (h c) = lowerOutcome f (step c)) :
    (l.map h).mapM step' = lowerOutcome (List.map f) (l.mapM step) := by
  induction l with
  | nil => rfl
  | cons c l ih =>
    rw [List.map_cons, List.mapM_cons, List.mapM_cons]
    apply bind_eq_lowerOutcome (hstep c)
    intro a
    apply bind_eq_lowerOutcome ih
    intro as
    rfl

theorem forM_eq_lowerOutcome {l : List γ} {h : γ → δ} {check : γ → Except Error Unit}
    {check' : δ → Except Error Unit} (hcheck : ∀ c, check' (h c) = lowerOutcome id (check c)) :
    (l.map h).forM check' = lowerOutcome id (l.forM check) := by
  induction l with
  | nil => rfl
  | cons c l ih =>
    rw [List.forM_eq_forM] at ih ⊢
    rw [List.map_cons, List.forM_cons, List.forM_eq_forM, List.forM_cons]
    apply bind_eq_lowerOutcome (hcheck c)
    intro _
    exact ih

end

/-! ### Looking names up -/

section

variable {s : Schema} {t : Table} {fk : ForeignKey} {name owner : String} {key : List String}

theorem keyNames_lower : keyNames (key.map String.toLower) name.toLower = keyNames key name := by
  simp only [keyNames, List.any_map, Function.comp_def, sameName_toLower_left,
    sameName_toLower_right]

theorem Table.column?_lower : t.lower.column? name.toLower = (t.column? name).map Column.lower := by
  simp only [column?, lower, List.find?_map, Function.comp_def, Column.lower,
    sameName_toLower_left, sameName_toLower_right]

theorem Table.rowKey?_lower : t.lower.rowKey? = t.rowKey?.map (List.map String.toLower) := by
  cases h : t.primaryKey with
  | none => simp [rowKey?, lower, h]
  | some key => cases key <;> simp [rowKey?, lower, h, Option.filter]

theorem Schema.table?_lower : s.lower.table? name.toLower = (s.table? name).map Table.lower := by
  simp only [table?, lower, List.find?_map, Function.comp_def, Table.lower, sameName_toLower_left,
    sameName_toLower_right]

theorem Schema.referencing_lower :
    s.lower.referencing name.toLower =
      (s.referencing name).map (Prod.map Table.lower ForeignKey.lower) := by
  simp only [referencing, lower, List.flatMap_map, List.map_flatMap, Table.lower, List.filter_map,
    List.map_map, Function.comp_def, ForeignKey.lower, sameName_toLower_left,
    sameName_toLower_right, Prod.map_apply]

/-! ### Checking keys -/

theorem Table.requireColumn_lower :
    t.lower.requireColumn name.toLower = lowerOutcome Column.lower (t.requireColumn name) := by
  rw [requireColumn, column?_lower, requireColumn]
  cases t.column? name <;> rfl

theorem Table.requireColumns_lower (names : List String) :
    (names.map String.toLower).forM (fun name => discard (t.lower.requireColumn name)) =
      lowerOutcome id (names.forM fun name => discard (t.requireColumn name)) := by
  apply forM_eq_lowerOutcome
  intro name
  rw [requireColumn_lower]
  cases t.requireColumn name <;> rfl

theorem Table.checkKeyColumn_lower :
    t.lower.checkKeyColumn name.toLower = lowerOutcome id (t.checkKeyColumn name) := by
  apply bind_eq_lowerOutcome requireColumn_lower
  intro column
  change (if column.type.canIdentifyRow then _ else _) =
    lowerOutcome id (if column.type.canIdentifyRow then _ else _)
  split <;> rfl

theorem Table.checkPrimaryKey_lower :
    t.lower.checkPrimaryKey = lowerOutcome id t.checkPrimaryKey := by
  have hlower : t.lower.primaryKey = t.primaryKey.map (List.map String.toLower) := rfl
  unfold checkPrimaryKey
  rw [hlower]
  cases t.primaryKey with
  | none => rfl
  | some key =>
    cases key with
    | nil => rfl
    | cons k key => exact forM_eq_lowerOutcome (l := k :: key) fun _ => checkKeyColumn_lower

theorem Table.checkForeignKey_lower :
    t.lower.checkForeignKey s.lower fk.lower = lowerOutcome id (t.checkForeignKey s fk) := by
  have htarget : s.lower.table? fk.lower.target = (s.table? fk.target).map Table.lower :=
    Schema.table?_lower
  unfold checkForeignKey
  rw [htarget]
  cases s.table? fk.target with
  | none => rfl
  | some target =>
    simp only [Option.map_some, ForeignKey.lower, List.isEmpty_map, List.length_map]
    split
    · rfl
    · apply bind_eq_lowerOutcome (requireColumns_lower fk.columns)
      intro _
      exact requireColumns_lower fk.targetColumns

theorem Schema.validateTable_lower :
    s.lower.validateTable t.lower = lowerOutcome id (s.validateTable t) := by
  apply bind_eq_lowerOutcome Table.checkPrimaryKey_lower
  intro _
  exact forM_eq_lowerOutcome fun _ => Table.checkForeignKey_lower

theorem Schema.validate_lower : s.lower.validate = lowerOutcome id s.validate :=
  forM_eq_lowerOutcome fun _ => validateTable_lower

/-! ### Resolving references -/

theorem ForeignKey.resolve_lower :
    fk.lower.resolve s.lower owner.toLower = lowerOutcome ForeignKey.lower (fk.resolve s owner) := by
  have htarget : s.lower.table? fk.lower.target = (s.table? fk.target).map Table.lower :=
    Schema.table?_lower
  have hcolumns : fk.lower.targetColumns.isEmpty = fk.targetColumns.isEmpty := List.isEmpty_map
  unfold resolve
  rw [hcolumns, htarget]
  split
  · cases s.table? fk.target with
    | none => rfl
    | some target =>
      have hkey : target.lower.primaryKey = target.primaryKey.map (List.map String.toLower) := rfl
      simp only [Option.map_some, hkey]
      cases target.primaryKey <;> rfl
  · rfl

theorem Table.resolve_lower :
    t.lower.resolve s.lower = lowerOutcome Table.lower (t.resolve s) := by
  apply bind_eq_lowerOutcome (mapM_eq_lowerOutcome fun _ => ForeignKey.resolve_lower)
  intro foreignKeys
  rfl

theorem Schema.resolve_lower : s.lower.resolve = lowerOutcome Schema.lower s.resolve := by
  apply bind_eq_lowerOutcome (mapM_eq_lowerOutcome fun _ => Table.resolve_lower)
  intro tables
  rfl

end

end Overlay
