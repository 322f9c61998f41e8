import Overlay.Proofs.SchemaText.RoundTrip
import Overlay.Proofs.SchemaText.Spelling

/-!
# Every table can be rewritten

Whatever lines a table has, if columns of it are marked, the marks can be cut and the key be given a
line of its own (`TextBlock.exists_keyMoved`), and each of its references without a list of columns
can be given one (`TextBlock.exists_listGiven`).
-/

namespace Overlay.SchemaText

open Overlay.Text Grammar

/-! ### Constraints -/

section

variable {cs rest : List Char} {c : Constraint} {target : String} {names : List String}

theorem reference_of_constraint (h : constraint cs = some (.references target names, rest)) :
    reference cs = some ((target, names), rest) := by
  simp only [constraint, Option.orElse_eq_orElse, Option.orElse_eq_or, Option.or_eq_some_iff,
    Option.map_eq_some_iff, Prod.exists, Prod.mk.injEq] at h
  obtain ⟨_, _, _, h, ⟨⟩, rfl⟩ | ⟨-, ⟨_, -, ⟨⟩, -⟩ | ⟨-, ⟨_, -, ⟨⟩, -⟩ | ⟨-, _, -, ⟨⟩, -⟩⟩⟩ := h
  exact h

/-- A further constraint stands behind a space. -/
theorem isSpace_of_nextConstraint (h : nextConstraint cs ≠ none) :
    ∃ d ∈ cs.head?, isSpace d = true := by
  obtain ⟨⟨c, rest⟩, h⟩ := Option.ne_none_iff_exists'.1 h
  simp only [nextConstraint, Option.bind_eq_bind, Option.bind_eq_some_iff,
    skipGap_eq_some_iff] at h
  obtain ⟨_, ⟨g, ⟨hne, hg⟩, rfl, -⟩, -⟩ := h
  obtain ⟨d, g, rfl⟩ := List.exists_cons_of_ne_nil hne
  exact ⟨d, rfl, hg d List.mem_cons_self⟩

theorem exists_of_nextConstraint (h : nextConstraint cs = some (c, rest)) :
    ∃ g k, cs = g ++ k ++ rest ∧ Gap g ∧ constraint (k ++ rest) = some (c, rest) ∧
      (c ≠ .primaryKey ∨ nextConstraint rest ≠ none → IsConstraint k c) := by
  simp only [nextConstraint, Option.bind_eq_bind, Option.bind_eq_some_iff,
    skipGap_eq_some_iff] at h
  obtain ⟨_, ⟨g, hg, rfl, -⟩, h⟩ := h
  obtain ⟨k, rfl, hk⟩ := exists_append_of_constraint h
  refine ⟨g, k, (List.append_assoc _ _ _).symm, hg, h, fun hc => ?_⟩
  obtain hk | ⟨hprimary, -, hletter⟩ := hk
  · exact hk
  · obtain hc | hc := hc
    · exact absurd hprimary hc
    · -- Behind KELVIN SIGN the text goes on with a letter and not with a space.
      exfalso
      obtain ⟨d, hd, hspace⟩ := isSpace_of_nextConstraint hc
      have hmem := hletter d hd
      simp only [isSpace, Bool.or_eq_true, beq_iff_eq] at hspace
      obtain rfl | rfl := hspace <;> exact absurd hmem (by decide)

/-- The marks of a primary key can be cut from whatever constraints make up the text. -/
theorem exists_marksCut (h : (many nextConstraint cs).2 = []) : ∃ cs' m, MarksCut cs cs' m := by
  fun_induction many nextConstraint cs with
  | case1 cs =>
    obtain rfl : cs = [] := h
    exact ⟨[], 0, .nil⟩
  | case2 cs c rest hnext _ constraints rest' hmany ih =>
    rw [hmany] at ih
    obtain ⟨cs', m, hcut⟩ := ih h
    obtain ⟨g, k, rfl, hg, hread, hk⟩ := exists_of_nextConstraint hnext
    by_cases hc : c = .primaryKey
    · exact ⟨cs', m + 1, .mark hg (hc ▸ hread) hcut⟩
    · exact ⟨_, m, .other hg (hk (.inl hc)) hc hg hcut⟩
  | case3 cs =>
    obtain rfl : cs = [] := h
    exact ⟨[], 0, .nil⟩

/-- A list of names can be put in behind whatever reference without one is read. -/
theorem exists_listAdded {l : List Char} (hl : Names l names)
    (hmem : .references target [] ∈ (many nextConstraint cs).1) :
    ∃ cs', ListAdded target names cs cs' := by
  fun_induction many nextConstraint cs with
  | case1 cs => cases hmem
  | case2 cs c rest hnext _ constraints rest' hmany ih =>
    rw [hmany] at ih
    obtain ⟨g, k, rfl, hg, hread, hk⟩ := exists_of_nextConstraint hnext
    obtain rfl | hmem := List.mem_cons.1 hmem
    · exact ⟨_, .here hg (reference_of_constraint hread) (List.forall_mem_nil _) hl⟩
    · have hmore : nextConstraint rest ≠ none := by
        intro hnone
        rw [many_of_eq_none hnone] at hmany
        rw [← (Prod.mk.inj hmany).1] at hmem
        cases hmem
      obtain ⟨cs', hadded⟩ := ih hmem
      exact ⟨_, .later hg (hk (.inr hmore)) hadded⟩
  | case3 cs => cases hmem

end

/-! ### Lines -/

section

variable {line l : List Char} {b : BodyLine} {name typeWord : String} {names : List String}
  {constraints : List Constraint} {ls ls' : List (List Char)} {body : List BodyLine}
  {fk : ForeignKey}

theorem exists_of_bodyLine?_column
    (h : bodyLine? line = some (.column name typeWord constraints)) :
    ∃ n g t cs, Word n name ∧ Gap g ∧ Word t typeWord ∧
      many nextConstraint cs = (constraints, []) ∧ line = n ++ g ++ t ++ cs := by
  obtain hline | ⟨n, g, t, cs, _, _, _, hn, hg, ht, hread, rfl, ⟨⟩⟩ :=
    isBodyLine_or_column_of_bodyLine? h
  · cases hline with
    | column hn hg ht hc => exact ⟨_, _, _, _, hn, hg, ht, many_nextConstraint hc, rfl⟩
  · exact ⟨n, g, t, cs, hn, hg, ht, hread, rfl⟩

/-- The marks can be cut from the lines of any table. -/
theorem exists_linesCut (hread : List.Forall₂ (fun line b => bodyLine? line = some b) ls body) :
    ∃ ls' names, LinesCut ls ls' names := by
  induction hread with
  | nil => exact ⟨[], [], .nil⟩
  | @cons line b ls body hline _ ih =>
    obtain ⟨ls', names, hcut⟩ := ih
    by_cases hmarks : b.inlineKey = []
    · refine ⟨line :: ls', names, .other (fun b' hb' => ?_) hcut⟩
      obtain rfl := Option.some.inj (hline.symm.trans hb')
      exact hmarks
    · cases b with
      | column name typeWord constraints =>
        obtain ⟨n, g, t, cs, hn, hg, ht, hmany, rfl⟩ := exists_of_bodyLine?_column hline
        obtain ⟨cs', m, hmarksCut⟩ := exists_marksCut (congrArg Prod.snd hmany)
        exact ⟨_, _, .column hn hg ht hmarksCut hg hcut⟩
      | primaryKey columns => exact absurd rfl hmarks
      | foreignKey columns target targetColumns => exact absurd rfl hmarks

theorem LinesCut.isWord (h : LinesCut ls ls' names) : ∀ name ∈ names, IsWord name := by
  induction h with
  | nil => exact List.forall_mem_nil _
  | column hn _ _ _ _ _ ih =>
    refine List.forall_mem_append.2 ⟨fun name hname => ?_, ih⟩
    obtain ⟨rfl, hword⟩ := hn
    obtain rfl := List.eq_of_mem_replicate hname
    exact ⟨rfl, hword⟩
  | other _ _ ih => exact ih

/-- A list of names can be put in behind any reference without one in a line of a table. -/
theorem exists_referenceLine (h : bodyLine? line = some b) (hfk : fk ∈ b.references)
    (hnil : fk.targetColumns = []) (hl : Names l names) :
    ∃ line', ReferenceLine fk.target names line line' := by
  cases b with
  | primaryKey columns => cases hfk
  | foreignKey columns target targetColumns =>
    obtain rfl := List.mem_singleton.1 hfk
    obtain rfl : targetColumns = [] := hnil
    obtain hline | ⟨_, _, _, _, _, _, _, -, -, -, -, -, ⟨⟩⟩ := isBodyLine_or_column_of_bodyLine? h
    cases hline with
    | foreignKey hk hg hr => exact ⟨_, .foreignKey hk hg hr (List.forall_mem_nil _) hl⟩
  | column name typeWord constraints =>
    obtain ⟨n, g, t, cs, hn, hg, ht, hmany, rfl⟩ := exists_of_bodyLine?_column h
    obtain ⟨c, hc, hfk⟩ := List.mem_filterMap.1 hfk
    cases c with
    | references target targetColumns =>
      obtain rfl := Option.some.inj hfk
      obtain rfl : targetColumns = [] := hnil
      have hmem : .references target [] ∈ (many nextConstraint cs).1 := by rwa [hmany]
      obtain ⟨cs', hadded⟩ := exists_listAdded hl hmem
      exact ⟨_, .column hn hg ht hadded⟩
    | primaryKey => cases hfk
    | notNull => cases hfk
    | nullable => cases hfk

end

/-! ### Blocks -/

section

variable {b : TextBlock} {d : Block} {fk : ForeignKey} {names : List String}

/-- The key of a table can be given a line of its own if columns are marked. -/
theorem TextBlock.exists_keyMoved (hb : b.StandsFor d) (hmarks : d.inlineKey ≠ []) :
    ∃ b', b.KeyMoved b' := by
  obtain ⟨ls', names, hcut⟩ := exists_linesCut hb.body
  obtain ⟨hlines, rfl⟩ := hcut.read hb.body
  have hkeyword : Keyword "primary" "primary".toList := by decide
  have hkey := keyClause_text hkeyword hmarks hcut.isWord
  obtain ⟨keyLine, hkey⟩ : ∃ keyLine, KeyClause "primary" keyLine d.inlineKey := ⟨_, hkey⟩
  have hbrace : ['}'] ∉ keyLine :: ls' :=
    brace_notMem_of_forall₂ (.cons (bodyLine?_primaryKey hkey) hlines)
  exact ⟨⟨b.head, keyLine :: ls', hbrace⟩, [], keyLine, ls', _, hcut, hkey, rfl, rfl⟩

/-- Any reference of a table that lists no columns can list the columns of a key. -/
theorem TextBlock.exists_listGiven (hb : b.StandsFor d) (hfk : fk ∈ d.references)
    (hnil : fk.targetColumns = []) (hne : names ≠ []) (hwords : ∀ name ∈ names, IsWord name) :
    ∃ b', b.ListGiven fk.target names b' := by
  obtain ⟨l, hl, hfk⟩ := List.mem_flatMap.1 hfk
  obtain ⟨front, back, hbody⟩ := List.append_of_mem hl
  have hlines := hb.body
  rw [hbody] at hlines
  obtain ⟨front', rest, hinner, hfront, hrest⟩ := forall₂_append_left_iff.1 hlines.flip
  obtain ⟨line, back', hline, hback, rfl⟩ := List.forall₂_cons_left_iff.1 hrest
  obtain ⟨line', hgiven⟩ := exists_referenceLine hline hfk hnil (names_namesText hne hwords)
  obtain ⟨l', hline', -⟩ := hgiven.read hline
  have hbrace : ['}'] ∉ front' ++ line' :: back' :=
    brace_notMem_of_forall₂ (List.rel_append hfront.flip (.cons hline' hback.flip))
  exact ⟨⟨b.head, _, hbrace⟩, front', line, line', back', hgiven, rfl, hinner, rfl⟩

end

end Overlay.SchemaText
