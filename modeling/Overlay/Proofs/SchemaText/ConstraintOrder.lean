import Overlay.Proofs.SchemaText.Acceptance
import Overlay.Proofs.SchemaText.Respellable

/-!
# The order of constraints

A column line adds the same to its table in whatever order its constraints stand, but for two
things: the references stand in the order of the constraints, and of the constraints that are about
null values the last one counts (`Draft.adds_in_every_order`). So a column is the same in every order
exactly if none of its constraints allows null values that another one forbids.
-/

namespace Overlay.SchemaText

open Overlay.Text Grammar

/-! ### What a column line adds -/

/-- What a column line adds to its table. -/
structure Addition where
  column : Column
  inlineKey : List String
  foreignKeys : List ForeignKey
  deriving DecidableEq, Repr

/-- What a column with the given constraints adds. -/
def Addition.ofColumn (name : String) (type : ColumnType) (constraints : List Constraint) :
    Addition :=
  { column := { name, type, nullable := isNullable constraints }
    inlineKey := (constraints.filter (· = .primaryKey)).map fun _ => name
    foreignKeys := constraints.filterMap (Constraint.reference? name) }

/-- The two add columns of the same name and type, the same key columns, and the same references up
to their order. -/
structure Addition.Similar (a a' : Addition) : Prop where
  name : a'.column.name = a.column.name
  type : a'.column.type = a.column.type
  inlineKey : a'.inlineKey = a.inlineKey
  foreignKeys : a'.foreignKeys.Perm a.foreignKeys

/-- The table with what a column line adds. -/
def OpenTable.adding (t : OpenTable) (a : Addition) : OpenTable :=
  { t with
    columns := t.columns ++ [a.column]
    inlineKey := t.inlineKey ++ a.inlineKey
    foreignKeys := t.foreignKeys ++ a.foreignKeys }

/-- Wherever the line stands, it adds this to the open table. -/
def Draft.Adds (d : Draft) (line : List Char) (a : Addition) : Prop :=
  ∃ t, d.current = some t ∧ ∀ n, d.step (n, line) = .ok { d with current := some (t.adding a) }

/-- Both lines add a column, and it is the same. -/
def Draft.AddSameColumn (d : Draft) (line line' : List Char) : Prop :=
  ∃ a a', d.Adds line a ∧ d.Adds line' a' ∧ a'.column = a.column

/-- Null values are allowed by one of the constraints and forbidden by another. -/
def Contradictory (constraints : List Constraint) : Prop :=
  .nullable ∈ constraints ∧ (.primaryKey ∈ constraints ∨ .notNull ∈ constraints)

section

variable {name typeWord : String} {type : ColumnType} {c : Constraint} {b : BodyLine}
  {nullable : Bool} {constraints constraints' : List Constraint} {cs line line' : List Char}
  {t : OpenTable} {d : Draft} {a a' : Addition}

theorem OpenTable.addLine_column (htype : ColumnType.ofWord? typeWord = some type) :
    t.addLine (.column name typeWord constraints) =
      .ok (t.adding (.ofColumn name type constraints)) := by
  simp only [addLine, htype, addColumn_eq]
  rfl

theorem Draft.step_eq_innerLine (hcurrent : d.current = some t)
    (hline : bodyLine? line = some b) (n : Nat) : d.step (n, line) = d.innerLine t n line := by
  have hbrace : line ≠ ['}'] := by
    rintro rfl
    rw [bodyLine?_brace] at hline
    cases hline
  simp only [step, hcurrent, if_neg hbrace]

/-- A column line of a known type adds what its constraints say. -/
theorem Draft.adds_ofColumn (hcurrent : d.current = some t)
    (hline : bodyLine? line = some (.column name typeWord constraints))
    (htype : ColumnType.ofWord? typeWord = some type) :
    d.Adds line (.ofColumn name type constraints) := by
  refine ⟨t, hcurrent, fun n => ?_⟩
  rw [step_eq_innerLine hcurrent hline]
  simp only [innerLine, hline, OpenTable.addLine_column htype]

/-- A column line of an unknown type is refused whatever its constraints are. -/
theorem Draft.step_of_unknownType (hcurrent : d.current = some t)
    (hline : bodyLine? line = some (.column name typeWord constraints))
    (htype : ColumnType.ofWord? typeWord = none) (n : Nat) :
    d.step (n, line) = .error (.text n (.unknownType typeWord)) := by
  rw [step_eq_innerLine hcurrent hline]
  simp only [innerLine, hline, OpenTable.addLine, htype]

theorem OpenTable.adding_inj (h : t.adding a = t.adding a') : a = a' := by
  obtain ⟨column, inlineKey, foreignKeys⟩ := a
  simp only [adding, OpenTable.mk.injEq, List.append_cancel_left_eq, List.cons.injEq, and_true,
    true_and] at h
  obtain ⟨rfl, rfl, rfl⟩ := h
  rfl

/-- A line adds one thing at most. -/
theorem Draft.Adds.unique (h : d.Adds line a) (h' : d.Adds line a') : a = a' := by
  obtain ⟨t, hcurrent, hstep⟩ := h
  obtain ⟨t', hcurrent', hstep'⟩ := h'
  obtain rfl : t = t' := Option.some.inj (hcurrent.symm.trans hcurrent')
  have hdraft := Except.ok.inj ((hstep 0).symm.trans (hstep' 0))
  exact OpenTable.adding_inj (Option.some.inj (Draft.mk.inj hdraft).2.2)

/-! ### Null values -/

theorem Constraint.nullability?_eq_true_iff : c.nullability? = some true ↔ c = .nullable := by
  cases c <;> simp [nullability?]

theorem Constraint.nullability?_eq_false_iff :
    c.nullability? = some false ↔ c = .primaryKey ∨ c = .notNull := by
  cases c <;> simp [nullability?]

theorem contradictory_iff :
    Contradictory constraints ↔
      (∃ c ∈ constraints, c.nullability? = some true) ∧
        ∃ c ∈ constraints, c.nullability? = some false := by
  simp only [Constraint.nullability?_eq_true_iff, Constraint.nullability?_eq_false_iff,
    Contradictory, exists_eq_right, and_or_left, exists_or]

/-- The last constraint decides if it is about null values. -/
theorem isNullable_concat (h : c.nullability? = some nullable) :
    isNullable (constraints ++ [c]) = nullable := by
  rw [isNullable, List.filterMap_append, List.filterMap_cons_some h]
  simp

/-- Whether a column is nullable is what one of its constraints says; it is if none says anything. -/
theorem isNullable_or_exists (constraints : List Constraint) :
    (isNullable constraints = true ∧ ∀ c ∈ constraints, c.nullability? = none) ∨
      ∃ c ∈ constraints, c.nullability? = some (isNullable constraints) := by
  by_cases hstates : constraints.filterMap Constraint.nullability? = []
  · refine .inl ⟨?_, List.filterMap_eq_nil_iff.1 hstates⟩
    rw [isNullable, hstates]
    rfl
  · refine .inr (List.mem_filterMap.1 ?_)
    rw [isNullable, List.getLastD_eq_getLast?, List.getLast?_eq_some_getLast hstates]
    exact List.getLast_mem hstates

theorem isNullable_eq_of_perm (hperm : constraints.Perm constraints')
    (h : ¬Contradictory constraints) : isNullable constraints' = isNullable constraints := by
  rw [contradictory_iff] at h
  obtain ⟨hnullable, hnone⟩ | ⟨c, hc, hstates⟩ := isNullable_or_exists constraints
  · obtain ⟨hnullable', -⟩ | ⟨c', hc', hstates'⟩ := isNullable_or_exists constraints'
    · rw [hnullable, hnullable']
    · rw [hnone c' (hperm.mem_iff.2 hc')] at hstates'
      cases hstates'
  · obtain ⟨-, hnone⟩ | ⟨c', hc', hstates'⟩ := isNullable_or_exists constraints'
    · rw [hnone c (hperm.mem_iff.1 hc)] at hstates
      cases hstates
    · have hc' := hperm.mem_iff.2 hc'
      cases hvalue : isNullable constraints <;> cases hvalue' : isNullable constraints' <;>
        rw [hvalue] at hstates <;> rw [hvalue'] at hstates'
      · exact absurd ⟨⟨c', hc', hstates'⟩, c, hc, hstates⟩ h
      · exact absurd ⟨⟨c, hc, hstates⟩, c', hc', hstates'⟩ h

/-- A constraint that is about null values can be put last, where it decides. -/
theorem exists_perm_isNullable (hc : c ∈ constraints) (h : c.nullability? = some nullable) :
    ∃ constraints', constraints.Perm constraints' ∧ isNullable constraints' = nullable :=
  ⟨constraints.erase c ++ [c],
    (List.perm_cons_erase hc).trans (List.perm_append_singleton c _).symm, isNullable_concat h⟩

/-- A column that is marked as key is not nullable if it is not said to be. -/
theorem isNullable_of_primaryKey (hkey : .primaryKey ∈ constraints)
    (hnullable : .nullable ∉ constraints) : isNullable constraints = false := by
  obtain ⟨-, hnone⟩ | ⟨c, hc, hstates⟩ := isNullable_or_exists constraints
  · cases hnone .primaryKey hkey
  · by_contra htrue
    rw [Bool.not_eq_false] at htrue
    rw [htrue, Constraint.nullability?_eq_true_iff] at hstates
    exact hnullable (hstates ▸ hc)

/-! ### Constraints in another order -/

theorem Addition.similar_of_perm (h : constraints.Perm constraints') :
    (ofColumn name type constraints).Similar (ofColumn name type constraints') where
  name := rfl
  type := rfl
  inlineKey := by
    -- The column is marked as often as before.
    have hlength := (h.filter (· = .primaryKey)).length_eq
    change List.map _ _ = List.map _ _
    rw [List.map_const', List.map_const', hlength]
  foreignKeys := (h.filterMap _).symm

/-- Every constraint that is read can be written as the grammar has it. -/
theorem exists_isConstraint (h : c ∈ (many nextConstraint cs).1) : ∃ k, IsConstraint k c := by
  fun_induction many nextConstraint cs with
  | case1 cs => cases h
  | case2 cs next rest hnext _ constraints rest' hmany ih =>
    rw [hmany] at ih
    obtain rfl | h := List.mem_cons.1 h
    · obtain ⟨g, k, -, -, -, hk⟩ := exists_of_nextConstraint hnext
      by_cases hc : c = .primaryKey
      · subst hc
        exact ⟨"primary_key".toList, .primaryKey (by decide)⟩
      · exact ⟨k, hk (.inl hc)⟩
    · exact ih h
  | case3 cs => cases h

theorem exists_constraints (h : ∀ c ∈ constraints, ∃ k, IsConstraint k c) :
    ∃ cs, Constraints cs constraints := by
  induction constraints with
  | nil => exact ⟨[], .nil⟩
  | cons c constraints ih =>
    obtain ⟨⟨k, hk⟩, hrest⟩ := List.forall_mem_cons.1 h
    obtain ⟨cs, hcs⟩ := ih hrest
    exact ⟨_, .cons gap_space hk hcs⟩

/-- Some line declares the column with its constraints in another order. -/
theorem exists_bodyLine?_of_perm
    (hline : bodyLine? line = some (.column name typeWord constraints))
    (hperm : constraints.Perm constraints') :
    ∃ line', bodyLine? line' = some (.column name typeWord constraints') := by
  obtain ⟨n, g, w, cs, hn, hg, hw, hmany, -⟩ := exists_of_bodyLine?_column hline
  have hspelled (c : Constraint) (hc : c ∈ constraints') : ∃ k, IsConstraint k c := by
    have hread : c ∈ (many nextConstraint cs).1 := by
      rw [hmany]
      exact hperm.mem_iff.2 hc
    exact exists_isConstraint hread
  obtain ⟨cs', hcs'⟩ := exists_constraints hspelled
  exact ⟨_, bodyLine?_column hn hg hw hcs'⟩

/-- The two lines are processed alike: if the type of the column is not known, both are refused in
the same way, and if it is, what they add differs at most in whether the column is nullable and in
the order of the references. -/
structure Draft.Alike (d : Draft) (typeWord : String) (line line' : List Char) : Prop where
  refused : ColumnType.ofWord? typeWord = none → ∀ n,
    d.step (n, line) = .error (.text n (.unknownType typeWord)) ∧
      d.step (n, line') = .error (.text n (.unknownType typeWord))
  added : ColumnType.ofWord? typeWord ≠ none →
    ∃ a a', d.Adds line a ∧ d.Adds line' a' ∧ a.Similar a'

theorem Draft.alike_of_perm (hcurrent : d.current = some t)
    (hline : bodyLine? line = some (.column name typeWord constraints))
    (hline' : bodyLine? line' = some (.column name typeWord constraints'))
    (hperm : constraints.Perm constraints') : d.Alike typeWord line line' where
  refused htype n :=
    ⟨step_of_unknownType hcurrent hline htype n, step_of_unknownType hcurrent hline' htype n⟩
  added htype := by
    obtain ⟨type, htype⟩ := Option.ne_none_iff_exists'.1 htype
    exact ⟨_, _, adds_ofColumn hcurrent hline htype, adds_ofColumn hcurrent hline' htype,
      Addition.similar_of_perm hperm⟩

/-- A line adds a column only if its type is known, and then it is nullable if the last of the
constraints that are about null values says so. -/
theorem Draft.Adds.eq_ofColumn (h : d.Adds line a)
    (hline : bodyLine? line = some (.column name typeWord constraints)) :
    ∃ type, ColumnType.ofWord? typeWord = some type ∧ a = .ofColumn name type constraints := by
  have hadds := h
  obtain ⟨t, hcurrent, hstep⟩ := h
  cases htype : ColumnType.ofWord? typeWord with
  | none => cases (step_of_unknownType hcurrent hline htype 0).symm.trans (hstep 0)
  | some type => exact ⟨type, rfl, hadds.unique (adds_ofColumn hcurrent hline htype)⟩

/-- The constraints of a column line can be written in any order, and in every order the line adds
the same column but for its nullability, the same key columns and the same references up to their
order. A column is nullable if the last constraint that is about null values says so; so it is the
same in every order exactly if no constraint allows null values that another one forbids. -/
theorem Draft.adds_in_every_order (hcurrent : d.current = some t)
    (hline : bodyLine? line = some (.column name typeWord constraints)) :
    (∀ constraints', constraints.Perm constraints' →
      (∃ line', bodyLine? line' = some (.column name typeWord constraints')) ∧
        ∀ line', bodyLine? line' = some (.column name typeWord constraints') →
          d.Alike typeWord line line' ∧
            ∀ a', d.Adds line' a' → a'.column.nullable = isNullable constraints') ∧
      (ColumnType.ofWord? typeWord ≠ none →
        ((∀ constraints' line', constraints.Perm constraints' →
            bodyLine? line' = some (.column name typeWord constraints') →
              d.AddSameColumn line line') ↔ ¬Contradictory constraints)) ∧
      (.primaryKey ∈ constraints → .nullable ∉ constraints →
        ∀ a, d.Adds line a → a.column.nullable = false) := by
  refine ⟨fun constraints' hperm => ⟨exists_bodyLine?_of_perm hline hperm, fun line' hline' => ?_⟩,
    fun htype => ?_, fun hkey hnullable a ha => ?_⟩
  · refine ⟨alike_of_perm hcurrent hline hline' hperm, fun a' ha' => ?_⟩
    obtain ⟨type, -, rfl⟩ := ha'.eq_ofColumn hline'
    rfl
  · obtain ⟨type, htype⟩ := Option.ne_none_iff_exists'.1 htype
    have hadds := adds_ofColumn hcurrent hline htype
    refine ⟨fun hsame hcontra => ?_, fun hcontra constraints' line' hperm hline' => ?_⟩
    · -- The constraint that allows null values can stand last, and so can the one that forbids them.
      have hvalue (value : Bool) (h : ∃ c ∈ constraints, c.nullability? = some value) :
          isNullable constraints = value := by
        obtain ⟨c, hc, hstates⟩ := h
        obtain ⟨constraints', hperm, hnullable⟩ := exists_perm_isNullable hc hstates
        obtain ⟨line', hline'⟩ := exists_bodyLine?_of_perm hline hperm
        obtain ⟨a, a', ha, ha', hcolumn⟩ := hsame constraints' line' hperm hline'
        rw [ha.unique hadds, ha'.unique (adds_ofColumn hcurrent hline' htype)] at hcolumn
        exact (congrArg Column.nullable hcolumn).symm.trans hnullable
      obtain ⟨hallowed, hforbidden⟩ := contradictory_iff.1 hcontra
      cases (hvalue true hallowed).symm.trans (hvalue false hforbidden)
    · refine ⟨_, _, hadds, adds_ofColumn hcurrent hline' htype, ?_⟩
      rw [Addition.ofColumn, Addition.ofColumn, isNullable_eq_of_perm hperm hcontra]
  · obtain ⟨type, -, rfl⟩ := ha.eq_ofColumn hline
    exact isNullable_of_primaryKey hkey hnullable

end

/-- A draft inside a table of which only the head has been read. -/
def Draft.inside : Draft :=
  { name := some "s", tables := [], current := some (.start 2 "t") }

/-- A key column with two references and no `nullable` is the same in every order. -/
theorem Draft.adds_in_every_order_key :
    ∃ line constraints,
      inside.current = some (.start 2 "t") ∧
        bodyLine? line = some (.column "k" "int" constraints) ∧
        ∀ constraints' line', constraints.Perm constraints' →
          bodyLine? line' = some (.column "k" "int" constraints') →
            inside.AddSameColumn line line' := by
  have hcurrent : inside.current = some (.start 2 "t") := rfl
  have hline : bodyLine? "k int not_null references u primary_key references v".toList =
      some (.column "k" "int" [.notNull, .references "u" [], .primaryKey, .references "v" []]) := by
    decide +kernel
  have hcontra : ¬Contradictory
      [.notNull, .references "u" [], .primaryKey, .references "v" []] := by
    rintro ⟨hnullable, -⟩
    exact absurd hnullable (by decide)
  obtain ⟨-, hsame, -⟩ := adds_in_every_order hcurrent hline
  exact ⟨_, _, hcurrent, hline, (hsame (by decide +kernel)).2 hcontra⟩

/-- A key column is nullable if `nullable` stands behind `primary_key`, and is not if it stands in
front of it. -/
theorem Draft.exists_orders_that_differ :
    ∃ line line' constraints constraints' a a',
      bodyLine? line = some (.column "k" "int" constraints) ∧
        bodyLine? line' = some (.column "k" "int" constraints') ∧
        constraints.Perm constraints' ∧ .primaryKey ∈ constraints ∧
        inside.Adds line a ∧ inside.Adds line' a' ∧
        a.column.nullable = true ∧ a'.column.nullable = false := by
  have hbehind : bodyLine? "k int primary_key nullable".toList =
      some (.column "k" "int" [.primaryKey, .nullable]) := by decide +kernel
  have hbefore : bodyLine? "k int nullable primary_key".toList =
      some (.column "k" "int" [.nullable, .primaryKey]) := by decide +kernel
  have htype : ColumnType.ofWord? "int" = some .integer := by decide +kernel
  exact ⟨_, _, _, _, _, _, hbehind, hbefore, .swap .., List.mem_cons_self,
    adds_ofColumn rfl hbehind htype, adds_ofColumn rfl hbefore htype, rfl, rfl⟩

end Overlay.SchemaText
