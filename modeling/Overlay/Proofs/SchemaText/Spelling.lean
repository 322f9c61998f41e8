import Overlay.Proofs.SchemaText.TableOrder

/-!
# Two spellings of keys and references

A primary key can be marked on its columns or given by a line of its own, and a reference to a
primary key can list its columns or leave them out. Here the lines of a table are rewritten from the
one spelling to the other, and it is shown how the new lines are read (`LinesCut.read`,
`ReferenceLine.read`).
-/

namespace Overlay.SchemaText

open Overlay.Text Grammar

/-! ### Marks of a primary key -/

namespace BodyLine

/-- The line without the marks of a primary key. -/
def unmarked : BodyLine → BodyLine
  | .column name typeWord constraints =>
    .column name typeWord (constraints.filter (· ≠ .primaryKey))
  | line => line

end BodyLine

/-- The constraints `cs'` are those of `cs` without the marks of a primary key, of which there are
`m`. -/
inductive MarksCut : List Char → List Char → Nat → Prop where
  | nil : MarksCut [] [] 0
  | mark {g k cs cs' : List Char} {m : Nat} :
      Gap g → constraint (k ++ cs) = some (.primaryKey, cs) → MarksCut cs cs' m →
        MarksCut (g ++ k ++ cs) cs' (m + 1)
  | other {g g' k cs cs' : List Char} {c : Constraint} {m : Nat} :
      Gap g → IsConstraint k c → c ≠ .primaryKey → Gap g' → MarksCut cs cs' m →
        MarksCut (g ++ k ++ cs) (g' ++ k ++ cs') m

/-- The lines `ls'` are the lines `ls` of a table without the marks of a primary key, and `names`
has the name of the column for each of the marks, in order. -/
inductive LinesCut : List (List Char) → List (List Char) → List String → Prop where
  | nil : LinesCut [] [] []
  | column {n g g' t cs cs' : List Char} {name typeWord : String} {m : Nat}
      {ls ls' : List (List Char)} {names : List String} :
      Word n name → Gap g → Word t typeWord → MarksCut cs cs' m → Gap g' → LinesCut ls ls' names →
        LinesCut ((n ++ g ++ t ++ cs) :: ls) ((n ++ g' ++ t ++ cs') :: ls')
          (List.replicate m name ++ names)
  | other {line : List Char} {ls ls' : List (List Char)} {names : List String} :
      (∀ b, bodyLine? line = some b → b.inlineKey = []) → LinesCut ls ls' names →
        LinesCut (line :: ls) (line :: ls') names

section

variable {cs cs' : List Char} {m : Nat} {ls ls' : List (List Char)} {names : List String}
  {body : List BodyLine}

theorem MarksCut.endsReference (h : MarksCut cs cs' m) : EndsReference cs := by
  induction h with
  | nil => exact .of_constraints .nil
  | mark hg hread =>
    rw [List.append_assoc]
    exact endsReference_of_constraint hg hread
  | other hg hk _ _ _ ih =>
    rw [List.append_assoc]
    exact endsReference_of_constraint hg (constraint_append hk ih)

/-- Cutting the marks cuts them from the constraints that are read. -/
theorem MarksCut.read (h : MarksCut cs cs' m) :
    (many nextConstraint cs).2 = [] ∧
      Constraints cs' ((many nextConstraint cs).1.filter (· ≠ .primaryKey)) ∧
        ((many nextConstraint cs).1.filter (· = .primaryKey)).length = m := by
  induction h with
  | nil =>
    rw [many_nextConstraint .nil]
    exact ⟨rfl, .nil, rfl⟩
  | mark hg hread _ ih =>
    rw [many_nextConstraint_append hg hread]
    simpa using ih
  | other hg hk hne hg' hcs ih =>
    rw [many_nextConstraint_append hg (constraint_append hk hcs.endsReference)]
    obtain ⟨hrest, hconstraints, hlength⟩ := ih
    rw [List.filter_cons_of_pos (by simpa using hne), List.filter_cons_of_neg (by simpa using hne)]
    exact ⟨hrest, .cons hg' hk hconstraints, hlength⟩

theorem BodyLine.unmarked_of_inlineKey_eq_nil {b : BodyLine} (h : b.inlineKey = []) :
    b.unmarked = b := by
  cases b with
  | column name typeWord constraints =>
    have hmarks : ∀ c ∈ constraints, c ≠ .primaryKey := by simpa [inlineKey] using h
    have hfilter : constraints.filter (· ≠ .primaryKey) = constraints := by
      rw [List.filter_eq_self]
      simpa using hmarks
    rw [unmarked, hfilter]
  | primaryKey columns => rfl
  | foreignKey columns target targetColumns => rfl

/-- Cutting the marks from the lines of a table cuts them from what is read. -/
theorem LinesCut.read (h : LinesCut ls ls' names)
    (hread : List.Forall₂ (fun line b => bodyLine? line = some b) ls body) :
    List.Forall₂ (fun line b => bodyLine? line = some b) ls' (body.map BodyLine.unmarked) ∧
      names = body.flatMap BodyLine.inlineKey := by
  induction h generalizing body with
  | nil =>
    cases hread
    exact ⟨.nil, rfl⟩
  | column hn hg ht hcs hg' _ ih =>
    obtain ⟨b, body, hline, hlines, rfl⟩ := List.forall₂_cons_left_iff.1 hread
    obtain ⟨hlines', rfl⟩ := ih hlines
    obtain ⟨-, rfl⟩ := (bodyLine?_column_iff hn hg ht hcs.endsReference).1 hline
    obtain ⟨-, hconstraints, rfl⟩ := hcs.read
    refine ⟨.cons ?_ hlines', ?_⟩
    · exact bodyLine?_column hn hg' ht hconstraints
    · rw [List.flatMap_cons, BodyLine.inlineKey, List.map_const']
  | other hmarks _ ih =>
    obtain ⟨b, body, hline, hlines, rfl⟩ := List.forall₂_cons_left_iff.1 hread
    obtain ⟨hlines', rfl⟩ := ih hlines
    have hb := hmarks b hline
    refine ⟨.cons ?_ hlines', ?_⟩
    · rw [BodyLine.unmarked_of_inlineKey_eq_nil hb]
      exact hline
    · rw [List.flatMap_cons, hb, List.nil_append]

end

/-! ### Lists of target columns -/

/-- Behind a reference to `target` without a list the list of `names` is put in. -/
inductive ListAdded (target : String) (names : List String) : List Char → List Char → Prop where
  | here {g r g₁ l cs : List Char} :
      Gap g → reference (r ++ cs) = some ((target, []), cs) → Spaces g₁ → Names l names →
        ListAdded target names (g ++ r ++ cs) (g ++ (r ++ g₁ ++ l) ++ cs)
  | later {g k cs cs' : List Char} {c : Constraint} :
      Gap g → IsConstraint k c → ListAdded target names cs cs' →
        ListAdded target names (g ++ k ++ cs) (g ++ k ++ cs')

/-- In a line of a table the list of `names` is put in behind a reference to `target` without a
list. -/
inductive ReferenceLine (target : String) (names : List String) :
    List Char → List Char → Prop where
  | column {n g t cs cs' : List Char} {name typeWord : String} :
      Word n name → Gap g → Word t typeWord → ListAdded target names cs cs' →
        ReferenceLine target names (n ++ g ++ t ++ cs) (n ++ g ++ t ++ cs')
  | foreignKey {k g r g₁ l : List Char} {columns : List String} :
      KeyClause "foreign" k columns → Gap g → Reference r target [] → Spaces g₁ → Names l names →
        ReferenceLine target names (k ++ g ++ r) (k ++ g ++ (r ++ g₁ ++ l))

/-- One reference to `target` that lists no columns becomes one that lists `names`. -/
inductive BodyLine.ListAdded (target : String) (names : List String) :
    BodyLine → BodyLine → Prop where
  | column {name typeWord : String} {before after : List Constraint} :
      BodyLine.ListAdded target names
        (.column name typeWord (before ++ .references target [] :: after))
        (.column name typeWord (before ++ .references target names :: after))
  | foreignKey {columns : List String} :
      BodyLine.ListAdded target names (.foreignKey columns target [])
        (.foreignKey columns target names)

section

variable {target : String} {names : List String} {cs cs' r g₁ l rest line line' : List Char}
  {b b' : BodyLine}

theorem constraint_of_reference (h : reference cs = some ((target, names), rest)) :
    constraint cs = some (.references target names, rest) := by
  rw [constraint, h]
  rfl

/-- A list behind a reference belongs to it. -/
theorem Grammar.Reference.append_names (h : Reference r target []) (hg₁ : Spaces g₁)
    (hl : Names l names) : Reference (r ++ g₁ ++ l) target names := by
  cases h with
  | table hk hg hw => exact .columns hk hg hw hg₁ hl
  | columns _ _ _ _ hnil => cases hnil

theorem reference_append_list (h : reference (r ++ cs) = some ((target, []), cs))
    (hg₁ : Spaces g₁) (hl : Names l names) :
    reference (r ++ g₁ ++ l ++ cs) = some ((target, names), cs) := by
  obtain ⟨r', hr, heq⟩ := exists_of_reference h
  obtain rfl := List.append_cancel_right heq
  cases hr with
  | table hk hg hw => exact reference_append_names hk hg hw hg₁ hl
  | columns _ _ _ _ hnil => cases hnil

theorem ListAdded.endsReference (h : ListAdded target names cs cs') :
    EndsReference cs ∧ EndsReference cs' := by
  induction h with
  | here hg href hg₁ hl =>
    have hlist := reference_append_list href hg₁ hl
    rw [List.append_assoc, List.append_assoc]
    exact ⟨endsReference_of_constraint hg (constraint_of_reference href),
      endsReference_of_constraint hg (constraint_of_reference hlist)⟩
  | later hg hk _ ih =>
    rw [List.append_assoc, List.append_assoc]
    exact ⟨endsReference_of_constraint hg (constraint_append hk ih.1),
      endsReference_of_constraint hg (constraint_append hk ih.2)⟩

/-- The list is added to one of the references that are read, and nothing else is read in another
way. -/
theorem ListAdded.read (h : ListAdded target names cs cs') :
    ∃ before after rest,
      many nextConstraint cs = (before ++ .references target [] :: after, rest) ∧
        many nextConstraint cs' = (before ++ .references target names :: after, rest) := by
  induction h with
  | here hg href hg₁ hl =>
    have hlist := reference_append_list href hg₁ hl
    refine ⟨[], _, _, many_nextConstraint_append hg (constraint_of_reference href), ?_⟩
    exact many_nextConstraint_append hg (constraint_of_reference hlist)
  | @later g k cs cs' c hg hk hcs ih =>
    obtain ⟨before, after, rest, hread, hread'⟩ := ih
    obtain ⟨hend, hend'⟩ := hcs.endsReference
    refine ⟨c :: before, after, rest, ?_, ?_⟩
    · rw [many_nextConstraint_append hg (constraint_append hk hend), hread]
      rfl
    · rw [many_nextConstraint_append hg (constraint_append hk hend'), hread']
      rfl

theorem ReferenceLine.read (h : ReferenceLine target names line line')
    (hread : bodyLine? line = some b) :
    ∃ b', bodyLine? line' = some b' ∧ b.ListAdded target names b' := by
  cases h with
  | column hn hg ht hcs =>
    obtain ⟨hend, hend'⟩ := hcs.endsReference
    obtain ⟨before, after, rest, hmany, hmany'⟩ := hcs.read
    rw [bodyLine?_column_iff hn hg ht hend, hmany] at hread
    obtain ⟨rfl, rfl⟩ := hread
    refine ⟨_, ?_, .column⟩
    rw [bodyLine?_column_iff hn hg ht hend', hmany']
    exact ⟨rfl, rfl⟩
  | foreignKey hk hg hr hg₁ hl =>
    rw [bodyLine?_foreignKey hk hg hr] at hread
    obtain rfl := Option.some.inj hread
    exact ⟨_, bodyLine?_foreignKey hk hg (hr.append_names hg₁ hl), .foreignKey⟩

end

/-! ### Blocks -/

/-- The marks of the primary key of a table are cut, and a line is put in that lists their columns
in the same order. -/
def TextBlock.KeyMoved (b b' : TextBlock) : Prop :=
  ∃ front keyLine back names, LinesCut b.inner (front ++ back) names ∧
    KeyClause "primary" keyLine names ∧ b'.head = b.head ∧ b'.inner = front ++ keyLine :: back

/-- In one line of a table the list of `names` is put in behind a reference to `target`. -/
def TextBlock.ListGiven (target : String) (names : List String) (b b' : TextBlock) : Prop :=
  ∃ front line line' back, ReferenceLine target names line line' ∧ b'.head = b.head ∧
    b.inner = front ++ line :: back ∧ b'.inner = front ++ line' :: back

section

variable {α β : Type} {R : α → β → Prop}

theorem forall₂_append_left_iff {l₁ l₂ : List α} {bs : List β} :
    List.Forall₂ R (l₁ ++ l₂) bs ↔
      ∃ b₁ b₂, bs = b₁ ++ b₂ ∧ List.Forall₂ R l₁ b₁ ∧ List.Forall₂ R l₂ b₂ := by
  induction l₁ generalizing bs with
  | nil => simp
  | cons a l₁ ih =>
    rw [List.cons_append, List.forall₂_cons_left_iff]
    simp only [ih, List.forall₂_cons_left_iff]
    constructor
    · rintro ⟨b, _, hb, ⟨b₁, b₂, rfl, h₁, h₂⟩, rfl⟩
      exact ⟨b :: b₁, b₂, rfl, ⟨b, b₁, hb, h₁, rfl⟩, h₂⟩
    · rintro ⟨_, b₂, rfl, ⟨b, b₁, hb, h₁, rfl⟩, h₂⟩
      exact ⟨b, b₁ ++ b₂, hb, ⟨b₁, b₂, rfl, h₁, h₂⟩, rfl⟩

end

section

variable {b b' : TextBlock} {d : Block} {target : String} {names : List String}

theorem TextBlock.KeyMoved.standsFor (h : b.KeyMoved b') (hb : b.StandsFor d) :
    ∃ front back, d.inlineKey ≠ [] ∧ d.body.map BodyLine.unmarked = front ++ back ∧
      b'.StandsFor { name := d.name, body := front ++ .primaryKey d.inlineKey :: back } := by
  obtain ⟨front, keyLine, back, names, hcut, hkey, hhead, hinner⟩ := h
  obtain ⟨hlines, rfl⟩ := hcut.read hb.body
  obtain ⟨body, body', hbody, hfront, hback⟩ := forall₂_append_left_iff.1 hlines
  refine ⟨body, body', hkey.ne_nil, hbody, ?_, ?_⟩
  · rw [hhead]
    exact hb.head
  · rw [hinner]
    exact forall₂_append_left_iff.2 ⟨body, _, rfl, hfront, .cons (bodyLine?_primaryKey hkey) hback⟩

theorem TextBlock.ListGiven.standsFor (h : b.ListGiven target names b') (hb : b.StandsFor d) :
    ∃ front l l' back, d.body = front ++ l :: back ∧ l.ListAdded target names l' ∧
      b'.StandsFor { name := d.name, body := front ++ l' :: back } := by
  obtain ⟨front, line, line', back, hline, hhead, hinner, hinner'⟩ := h
  have hlines := hb.body
  rw [hinner] at hlines
  obtain ⟨body, rest, hbody, hfront, hrest⟩ := forall₂_append_left_iff.1 hlines
  obtain ⟨l, body', hl, hback, rfl⟩ := List.forall₂_cons_left_iff.1 hrest
  obtain ⟨l', hl', hadded⟩ := hline.read hl
  refine ⟨body, l, l', body', hbody, hadded, ?_, ?_⟩
  · rw [hhead]
    exact hb.head
  · rw [hinner']
    exact forall₂_append_left_iff.2 ⟨body, _, rfl, hfront, .cons hl' hback⟩

end

end Overlay.SchemaText
