import Overlay.Proofs.SchemaText.Phrase

/-!
# Reading the lines of a schema text

The phrases of a line read exactly the productions of the grammar, from the lists of names up to the
three whole lines `bodyLine?`, `schemaHead?` and `tableHead?`. A line inside a table is read by the
first of three forms that reads a part of it; the last section shows that the two key clauses never
take a line away from the columns, not even from one whose column is called `primary` or `foreign`.
-/

namespace Overlay.SchemaText.Grammar

open Overlay.Text

/-! ### What a part starts with -/

section

variable {p : Char → Bool} {c : Char} {cs u rest g w l r k : List Char}
  {name target keyword : String} {names : List String}

theorem isWordChar_of_isSpace (h : isSpace c = true) : isWordChar c = false := by
  simp only [isSpace, Bool.or_eq_true, beq_iff_eq] at h
  rcases h with rfl | rfl <;> decide

theorem isSpace_of_isWordChar (h : isWordChar c = true) : isSpace c = false := by
  rw [Bool.eq_false_iff]
  intro hs
  rw [isWordChar_of_isSpace hs] at h
  cases h

theorem free_append (hu : ∀ c ∈ u, p c = false) (hr : Free p rest) : Free p (u ++ rest) := by
  cases u with
  | nil => exact hr
  | cons c u => exact free_cons.2 (hu c List.mem_cons_self)

theorem free_append_of_ne_nil (hu : ∀ c ∈ u, p c = false) (hne : u ≠ []) : Free p (u ++ rest) := by
  cases u with
  | nil => exact absurd rfl hne
  | cons c u => exact free_cons.2 (hu c List.mem_cons_self)

theorem Spaces.free (hg : Spaces g) (hr : Free isWordChar rest) : Free isWordChar (g ++ rest) :=
  free_append (fun c hc => isWordChar_of_isSpace (hg c hc)) hr

theorem Gap.free (hg : Gap g) : Free isWordChar (g ++ rest) :=
  free_append_of_ne_nil (fun c hc => isWordChar_of_isSpace (hg.2 c hc)) hg.1

theorem Word.free (hw : Word w name) : Free isSpace (w ++ rest) :=
  free_append_of_ne_nil (fun c hc => isSpace_of_isWordChar (hw.forall_mem c hc)) hw.ne_nil

theorem isWordChar_of_letter (h : 65 ≤ c.toNat ∧ c.toNat ≤ 90 ∨ 97 ≤ c.toNat ∧ c.toNat ≤ 122) :
    isWordChar c = true := by
  have hascii : c.toNat < 0x80 := by omega
  simp only [isWordChar, isAlphanumeric, if_pos hascii, isAsciiAlphanumeric, Bool.or_eq_true,
    Bool.and_eq_true, decide_eq_true_eq]
  omega

theorem isWordChar_toLower (c : Char) : isWordChar c.toLower = isWordChar c := by
  unfold Char.toLower
  split
  · next h =>
    have hlow : 65 ≤ c.toNat := UInt32.le_iff_toNat_le.1 h.1
    have hhigh : c.toNat ≤ 90 := UInt32.le_iff_toNat_le.1 h.2
    rw [isWordChar_of_letter (c := c) (Or.inl ⟨hlow, hhigh⟩)]
    refine isWordChar_of_letter (Or.inr ?_)
    have hnew : (c.val + ('a'.val - 'A'.val)).toNat = c.toNat + 32 := by
      rw [UInt32.toNat_add]
      refine Nat.mod_eq_of_lt ?_
      change c.toNat + 32 < 2 ^ 32
      omega
    change 97 ≤ (c.val + ('a'.val - 'A'.val)).toNat ∧ (c.val + ('a'.val - 'A'.val)).toNat ≤ 122
    omega
  · rfl

theorem Keyword.word (hk : Keyword keyword k) (hne : keyword ≠ "")
    (h : keyword.toList.all isWordChar = true) : Word k (String.ofList k) := by
  refine ⟨String.toList_ofList.symm, ?_, fun c hc => ?_⟩
  · rintro rfl
    exact hne (String.toList_eq_nil_iff.1 hk.symm)
  · rw [← isWordChar_toLower]
    refine List.all_eq_true.1 h _ ?_
    rw [← show k.map Char.toLower = keyword.toList from hk]
    exact List.mem_map_of_mem hc

theorem MoreNames.free (h : MoreNames cs names) (hr : Free isWordChar rest) :
    Free isWordChar (cs ++ rest) := by
  cases h with
  | nil => exact hr
  | cons hg₁ =>
    simp only [List.append_assoc, List.cons_append]
    exact hg₁.free (free_cons.2 (by decide))

/-! ### Phrases against the grammar -/

theorem word_append (hw : Word w name) (hr : Free isWordChar rest) :
    word (w ++ rest) = some (name, rest) :=
  word_eq_some_iff_append.2 ⟨w, hw, rfl, hr⟩

theorem skipGap_append (hg : Gap g) (hr : Free isSpace rest) : skipGap (g ++ rest) = some rest :=
  skipGap_eq_some_iff.2 ⟨g, hg, rfl, hr⟩

theorem nextName_append {g₁ g₂ : List Char} (hg₁ : Spaces g₁) (hg₂ : Spaces g₂) (hw : Word w name)
    (hr : Free isWordChar rest) :
    nextName (g₁ ++ ',' :: g₂ ++ w ++ rest) = some (name, rest) := by
  simp only [nextName, List.append_assoc, List.cons_append]
  rw [skipSpaces_append hg₁ (free_cons.2 (by decide))]
  simp only [skipSymbol, if_pos, Option.bind_eq_bind, Option.bind_some]
  rw [skipSpaces_append hg₂ hw.free, word_append hw hr]

theorem exists_of_nextName (h : nextName cs = some (name, rest)) :
    ∃ g₁ g₂ w, Spaces g₁ ∧ Spaces g₂ ∧ Word w name ∧ cs = g₁ ++ ',' :: g₂ ++ w ++ rest := by
  simp only [nextName, Option.bind_eq_bind, Option.bind_eq_some_iff, skipSymbol_eq_some_iff,
    word_eq_some_iff_append] at h
  obtain ⟨cs₁, h₁, w, hw, h₂, -⟩ := h
  obtain ⟨g₁, hg₁, h₃⟩ := exists_spaces_append_skipSpaces cs
  obtain ⟨g₂, hg₂, h₄⟩ := exists_spaces_append_skipSpaces cs₁
  refine ⟨g₁, g₂, w, hg₁, hg₂, hw, ?_⟩
  rw [h₃, h₁, h₄, h₂]
  simp

theorem many_nextName_append (hm : MoreNames cs names) (hr : Free isWordChar rest)
    (hn : nextName rest = none) : many nextName (cs ++ rest) = (names, rest) := by
  induction hm with
  | nil => exact many_of_eq_none hn
  | cons hg₁ hg₂ hw hm ih =>
    rw [List.append_assoc]
    rw [many_of_eq_some (nextName_append hg₁ hg₂ hw (hm.free hr)), ih]
    simp only [List.length_append, List.length_cons]
    omega

theorem exists_moreNames (cs : List Char) :
    ∃ m, MoreNames m (many nextName cs).1 ∧ cs = m ++ (many nextName cs).2 := by
  fun_induction many nextName cs with
  | case1 cs => exact ⟨[], .nil, rfl⟩
  | case2 cs name rest h hlt names rest' hm ih =>
    obtain ⟨g₁, g₂, w, hg₁, hg₂, hw, rfl⟩ := exists_of_nextName h
    rw [hm] at ih
    obtain ⟨m, hmore, rfl⟩ := ih
    exact ⟨_, .cons hg₁ hg₂ hw hmore, by simp⟩
  | case3 cs => exact ⟨[], .nil, rfl⟩

theorem nextName_eq_none_of_paren (hg : Spaces g) : nextName (g ++ ')' :: rest) = none := by
  rw [nextName, skipSpaces_append hg (free_cons.2 (by decide))]
  simp [skipSymbol]

theorem nameList_append (h : Names l names) : nameList (l ++ rest) = some (names, rest) := by
  obtain ⟨hg₁, hw, hm, hg₂⟩ := h
  simp only [nameList, List.append_assoc, List.cons_append, skipSymbol, if_pos,
    Option.bind_eq_bind, Option.bind_some, List.nil_append]
  have hfree : Free isWordChar (_ ++ ')' :: rest) := hg₂.free (free_cons.2 (by decide))
  rw [skipSpaces_append hg₁ hw.free, word_append hw (hm.free hfree), Option.bind_some,
    many_nextName_append hm hfree (nextName_eq_none_of_paren hg₂)]
  simp only
  rw [skipSpaces_append hg₂ (free_cons.2 (by decide))]
  simp

theorem exists_of_nameList (h : nameList cs = some (names, rest)) :
    ∃ l, Names l names ∧ cs = l ++ rest := by
  simp only [nameList, Option.bind_eq_bind, Option.bind_eq_some_iff, skipSymbol_eq_some_iff,
    word_eq_some_iff_append, Option.some.injEq, Prod.mk.injEq, Prod.exists] at h
  obtain ⟨cs₁, rfl, name, cs₂, ⟨w, hw, h₁, -⟩, cs₃, h₂, rfl, rfl⟩ := h
  obtain ⟨g₁, hg₁, h₃⟩ := exists_spaces_append_skipSpaces cs₁
  obtain ⟨m, hm, h₄⟩ := exists_moreNames cs₂
  obtain ⟨g₂, hg₂, h₅⟩ := exists_spaces_append_skipSpaces (many nextName cs₂).2
  refine ⟨_, .list hg₁ hw hm hg₂, ?_⟩
  rw [h₃, h₁, h₄, h₅, h₂]
  simp

/-! ### References and constraints -/

/-- The text does not go on with what would belong to a reference: neither a word character nor an
opening parenthesis behind spaces. -/
def EndsReference (cs : List Char) : Prop :=
  Free isWordChar cs ∧ ∀ rest, skipSpaces cs ≠ '(' :: rest

theorem nameList_eq_none (h : ∀ rest, cs ≠ '(' :: rest) : nameList cs = none := by
  cases cs with
  | nil => simp [nameList, skipSymbol]
  | cons c cs =>
    have hc : c ≠ '(' := fun hc => h cs (by rw [hc])
    simp [nameList, skipSymbol, hc]

theorem Names.exists_cons (h : Names l names) : ∃ tail, l = '(' :: tail := by
  cases h
  exact ⟨_, rfl⟩

theorem Names.free {p : Char → Bool} (h : Names l names) (hp : p '(' = false) :
    Free p (l ++ rest) := by
  obtain ⟨tail, rfl⟩ := h.exists_cons
  exact free_cons.2 hp

theorem ascii_references : Ascii "references".toList := by decide

/-- Whatever follows, a reference is read up to the end of its list. -/
theorem reference_append_names {g₁ : List Char} (hk : Keyword "references" k) (hg : Gap g)
    (hw : Word w target) (hg₁ : Spaces g₁) (hl : Names l names) :
    reference (k ++ g ++ w ++ g₁ ++ l ++ rest) = some ((target, names), rest) := by
  simp only [reference, List.append_assoc]
  rw [after_append ascii_references hk]
  simp only [Option.bind_eq_bind, Option.bind_some]
  rw [skipGap_append hg hw.free, Option.bind_some,
    word_append hw (hg₁.free (hl.free (by decide))), Option.bind_some]
  simp only
  rw [skipSpaces_append hg₁ (hl.free (by decide)), nameList_append hl]

theorem reference_append (h : Reference r target names) (hr : EndsReference rest) :
    reference (r ++ rest) = some ((target, names), rest) := by
  cases h with
  | table hk hg hw =>
    simp only [reference, List.append_assoc]
    rw [after_append ascii_references hk]
    simp only [Option.bind_eq_bind, Option.bind_some]
    rw [skipGap_append hg hw.free, Option.bind_some, word_append hw hr.1, Option.bind_some]
    simp only
    rw [nameList_eq_none hr.2]
  | columns hk hg hw hg₁ hl => exact reference_append_names hk hg hw hg₁ hl

theorem exists_of_reference (h : reference cs = some ((target, names), rest)) :
    ∃ r, Reference r target names ∧ cs = r ++ rest := by
  simp only [reference, Option.bind_eq_bind, Option.bind_eq_some_iff, skipGap_eq_some_iff,
    after_eq_some_iff ascii_references fun hk => absurd hk (by decide), word_eq_some_iff_append,
    Prod.exists] at h
  obtain ⟨_, ⟨k, hk, rfl⟩, _, ⟨g, hg, rfl, -⟩, target', cs', ⟨w, hw, rfl, -⟩, h⟩ := h
  split at h
  · next hl =>
    obtain ⟨⟨rfl, rfl⟩, rfl⟩ := by simpa only [Option.some.injEq, Prod.mk.injEq] using h
    obtain ⟨g₁, hg₁, hcs'⟩ := exists_spaces_append_skipSpaces cs'
    obtain ⟨l, hl, hspaces⟩ := exists_of_nameList hl
    refine ⟨_, .columns hk hg hw hg₁ hl, ?_⟩
    rw [hcs', hspaces]
    simp
  · obtain ⟨⟨rfl, rfl⟩, rfl⟩ := by simpa only [Option.some.injEq, Prod.mk.injEq] using h
    exact ⟨_, .table hk hg hw, by simp⟩

variable {c : Constraint} {constraints : List Constraint}

theorem constraint_append (h : IsConstraint k c) (hr : EndsReference rest) :
    constraint (k ++ rest) = some (c, rest) := by
  have hnone {keyword : String} (hk : Ascii keyword.toList) (hkey : Keyword keyword k)
      (hne : clash "references".toList keyword.toList = true) :
      reference (k ++ rest) = none := by
    rw [reference, after_append_eq_none _ _ ascii_references hk hkey hne]
    rfl
  cases h with
  | primaryKey hk =>
    rw [constraint, hnone (by decide) hk (by decide), after_append (by decide) hk]
    rfl
  | notNull hk =>
    rw [constraint, hnone (by decide) hk (by decide),
      after_append_eq_none "primary_key" _ (by decide) (by decide) hk (by decide),
      after_append (by decide) hk]
    rfl
  | nullable hk =>
    rw [constraint, hnone (by decide) hk (by decide),
      after_append_eq_none "primary_key" _ (by decide) (by decide) hk (by decide),
      after_append_eq_none "not_null" _ (by decide) (by decide) hk (by decide),
      after_append (by decide) hk]
    rfl
  | references href =>
    rw [constraint, reference_append href hr]
    rfl

/-- A constraint is read where the grammar has one, unless KELVIN SIGN stands in `primary_key`; then
the text behind goes on with a letter of that word. -/
theorem exists_append_of_constraint (h : constraint cs = some (c, rest)) :
    ∃ k, cs = k ++ rest ∧ (IsConstraint k c ∨ c = .primaryKey ∧ kelvinSign ∈ k ∧
      ∀ d ∈ rest.head?, lowerLetter d ∈ "primary_key".toList) := by
  simp only [constraint, Option.orElse_eq_orElse, Option.orElse_eq_or, Option.or_eq_some_iff,
    Option.map_eq_some_iff, Prod.exists, Prod.mk.injEq] at h
  rcases h with ⟨target, names, rest', h, rfl, rfl⟩ | ⟨-, ⟨rest', h, rfl, rfl⟩ | ⟨-,
    ⟨rest', h, rfl, rfl⟩ | ⟨-, rest', h, rfl, rfl⟩⟩⟩
  · obtain ⟨r, hr, rfl⟩ := exists_of_reference h
    exact ⟨r, rfl, .inl (.references hr)⟩
  · obtain ⟨k, rfl, hk | ⟨-, hkelvin, hletter⟩⟩ := exists_of_afterKeyword (by decide) h
    · exact ⟨k, rfl, .inl (.primaryKey hk)⟩
    · exact ⟨k, rfl, .inr ⟨rfl, hkelvin, hletter⟩⟩
  · obtain ⟨k, hk, rfl⟩ := (after_eq_some_iff (by decide) fun hk => absurd hk (by decide)).1 h
    exact ⟨k, rfl, .inl (.notNull hk)⟩
  · obtain ⟨k, hk, rfl⟩ := (after_eq_some_iff (by decide) fun hk => absurd hk (by decide)).1 h
    exact ⟨k, rfl, .inl (.nullable hk)⟩

theorem exists_of_constraint (hcs : kelvinSign ∉ cs) (h : constraint cs = some (c, rest)) :
    ∃ k, IsConstraint k c ∧ cs = k ++ rest := by
  obtain ⟨k, rfl, hk | ⟨-, hkelvin, -⟩⟩ := exists_append_of_constraint h
  · exact ⟨k, hk, rfl⟩
  · exact absurd (List.mem_append_left rest hkelvin) hcs

/-- A gap and the constraint behind it. -/
def nextConstraint : Phrase Constraint := fun cs => do constraint (← skipGap cs)

theorem Reference.exists_word (h : Reference r target names) :
    ∃ w name tail, Word w name ∧ r = w ++ tail := by
  cases h with
  | @table k g w _ hk => exact ⟨k, _, g ++ w, hk.word (by decide) (by decide), by simp⟩
  | @columns k g w g₁ l _ _ hk =>
    exact ⟨k, _, g ++ w ++ g₁ ++ l, hk.word (by decide) (by decide), by simp⟩

/-- A constraint starts with a letter. -/
theorem exists_cons_of_constraint (h : constraint cs = some (c, rest)) :
    ∃ d tail, cs = d :: tail ∧ d ∉ [' ', '\t', '('] := by
  have hstart {keyword : String} {rest' : List Char} (hkeyword : Ascii keyword.toList)
      (hne : keyword.toList ≠ [])
      (hletter : keyword.toList.head? ∉ [' ', '\t', '('].map fun d => some (lowerLetter d))
      (h : after keyword cs = some rest') : ∃ d tail, cs = d :: tail ∧ d ∉ [' ', '\t', '('] := by
    obtain ⟨d, tail, hcs, hd⟩ := exists_cons_of_after hkeyword hne h
    exact ⟨d, tail, hcs, fun hmem => hletter (List.mem_map.2 ⟨d, hmem, hd.symm⟩)⟩
  simp only [constraint, Option.orElse_eq_orElse, Option.orElse_eq_or, Option.or_eq_some_iff,
    Option.map_eq_some_iff, Prod.exists, Prod.mk.injEq] at h
  obtain ⟨_, _, rest', h, -⟩ | ⟨-, ⟨rest', h, -⟩ | ⟨-, ⟨rest', h, -⟩ | ⟨-, rest', h, -⟩⟩⟩ := h
  · simp only [reference, Option.bind_eq_bind, Option.bind_eq_some_iff] at h
    obtain ⟨_, hafter, -⟩ := h
    exact hstart (by decide) (by decide) (by decide) hafter
  · exact hstart (by decide) (by decide) (by decide) h
  · exact hstart (by decide) (by decide) (by decide) h
  · exact hstart (by decide) (by decide) (by decide) h

theorem free_of_constraint (h : constraint cs = some (c, rest)) : Free isSpace cs := by
  obtain ⟨d, tail, rfl, hd⟩ := exists_cons_of_constraint h
  rw [free_cons, Bool.eq_false_iff]
  intro hspace
  simp only [isSpace, Bool.or_eq_true, beq_iff_eq] at hspace
  obtain rfl | rfl := hspace
  · exact hd (by decide)
  · exact hd (by decide)

/-- A further constraint does not prolong a reference in front of it. -/
theorem endsReference_of_constraint (hg : Gap g) (h : constraint cs = some (c, rest)) :
    EndsReference (g ++ cs) := by
  refine ⟨hg.free, fun tail' => ?_⟩
  rw [skipSpaces_append hg.2 (free_of_constraint h)]
  obtain ⟨d, tail, rfl, hd⟩ := exists_cons_of_constraint h
  rintro ⟨⟩
  exact hd (by simp)

theorem EndsReference.of_constraints (h : Constraints cs constraints) : EndsReference cs := by
  induction h with
  | nil => exact ⟨free_nil, by simp [skipSpaces]⟩
  | cons hg hk _ ih =>
    rw [List.append_assoc]
    exact endsReference_of_constraint hg (constraint_append hk ih)

theorem many_nextConstraint_append (hg : Gap g) (h : constraint (r ++ cs) = some (c, cs)) :
    many nextConstraint (g ++ r ++ cs) =
      (c :: (many nextConstraint cs).1, (many nextConstraint cs).2) := by
  have hnext : nextConstraint (g ++ r ++ cs) = some (c, cs) := by
    rw [List.append_assoc, nextConstraint, skipGap_append hg (free_of_constraint h)]
    exact h
  have hpos : 0 < g.length := List.length_pos_iff.2 hg.1
  rw [many_of_eq_some hnext]
  simp only [List.length_append]
  omega

theorem many_nextConstraint (h : Constraints cs constraints) :
    many nextConstraint cs = (constraints, []) := by
  induction h with
  | nil => exact many_of_eq_none (by simp [nextConstraint, skipGap])
  | cons hg hk h ih =>
    rw [many_nextConstraint_append hg (constraint_append hk (.of_constraints h)), ih]

theorem exists_constraints (hcs : kelvinSign ∉ cs) :
    ∃ l, Constraints l (many nextConstraint cs).1 ∧ cs = l ++ (many nextConstraint cs).2 := by
  fun_induction many nextConstraint cs with
  | case1 cs => exact ⟨[], .nil, rfl⟩
  | case2 cs c rest h hlt constraints rest' hm ih =>
    simp only [nextConstraint, Option.bind_eq_bind, Option.bind_eq_some_iff,
      skipGap_eq_some_iff] at h
    obtain ⟨_, ⟨g, hg, rfl, -⟩, h⟩ := h
    obtain ⟨k, hk, rfl⟩ := exists_of_constraint (by simp_all) h
    rw [hm] at ih
    obtain ⟨l, hl, rfl⟩ := ih (by simp_all)
    exact ⟨_, .cons hg hk hl, by simp⟩
  | case3 cs => exact ⟨[], .nil, rfl⟩

/-! ### Key clauses -/

theorem keyClause_append (hkey : Ascii keyword.toList) (h : KeyClause keyword cs names) :
    keyClause keyword (cs ++ rest) = some (names, rest) := by
  obtain ⟨hp, hg, hk, hg₁, hl⟩ := h
  simp only [keyClause, List.append_assoc]
  rw [after_append hkey hp]
  simp only [Option.bind_eq_bind, Option.bind_some]
  rw [skipGap_append hg (hk.word (by decide) (by decide)).free, Option.bind_some,
    after_append (by decide) hk, Option.bind_some, skipSpaces_append hg₁ (hl.free (by decide)),
    nameList_append hl]

/-- A list of names starts with a parenthesis and not with a letter that could follow KELVIN SIGN,
so that the word `key` of a key clause is spelled without it. -/
theorem exists_of_keyClause (hkey : Ascii keyword.toList) (hk : 'k' ∉ keyword.toList)
    (h : keyClause keyword cs = some (names, rest)) :
    ∃ l, KeyClause keyword l names ∧ cs = l ++ rest := by
  simp only [keyClause, Option.bind_eq_bind, Option.bind_eq_some_iff, skipGap_eq_some_iff,
    after_eq_some_iff hkey fun hmem => absurd hmem hk] at h
  obtain ⟨_, ⟨p, hp, rfl⟩, cs₁, ⟨g, hg, rfl, -⟩, cs₂, h₂, h⟩ := h
  obtain ⟨g₁, hg₁, h₃⟩ := exists_spaces_append_skipSpaces cs₂
  obtain ⟨l, hl, h₄⟩ := exists_of_nameList h
  rw [h₄] at h₃
  obtain ⟨k, rfl, hk | ⟨-, -, hletter⟩⟩ := exists_of_afterKeyword (by decide) h₂
  · exact ⟨_, .clause hp hg hk hg₁ hl, by simp [h₃]⟩
  · obtain ⟨tail, rfl⟩ := hl.exists_cons
    cases g₁ with
    | nil => exact absurd (hletter '(' (by rw [h₃]; rfl)) (by decide)
    | cons d g₁ =>
      have hspace := hg₁ d List.mem_cons_self
      have hd := hletter d (by rw [h₃]; rfl)
      simp only [isSpace, Bool.or_eq_true, beq_iff_eq] at hspace
      obtain rfl | rfl := hspace <;> exact absurd hd (by decide)

/-- What follows the first two words of a line. -/
def afterTwoWords (cs : List Char) : Option (List Char) := do
  let (_, cs) ← word cs
  let (_, cs) ← word (← skipGap cs)
  some cs

theorem afterTwoWords_append {w₁ w₂ : List Char} {name₁ name₂ : String} (h₁ : Word w₁ name₁)
    (hg : Gap g) (h₂ : Word w₂ name₂) (hr : Free isWordChar rest) :
    afterTwoWords (w₁ ++ g ++ w₂ ++ rest) = some rest := by
  simp only [afterTwoWords, List.append_assoc]
  rw [word_append h₁ hg.free]
  simp only [Option.bind_eq_bind, Option.bind_some]
  rw [skipGap_append hg h₂.free, Option.bind_some, word_append h₂ hr]
  rfl

/-- Behind the two words of a key clause stands a parenthesis. -/
theorem KeyClause.afterTwoWords (h : KeyClause keyword cs names) (hne : keyword ≠ "")
    (hword : keyword.toList.all isWordChar = true) (rest : List Char) :
    ∃ g tail, Spaces g ∧ afterTwoWords (cs ++ rest) = some (g ++ '(' :: tail) := by
  cases h with
  | @clause p g k g₁ l _ hp hg hk hg₁ hl =>
    obtain ⟨tail, rfl⟩ := hl.exists_cons
    refine ⟨g₁, tail ++ rest, hg₁, ?_⟩
    rw [List.append_assoc, List.append_assoc]
    exact afterTwoWords_append (hp.word hne hword) hg (hk.word (by decide) (by decide))
      (hg₁.free (free_cons.2 (by decide)))

/-- A column is not taken for a key clause, since no parenthesis follows its type. -/
theorem keyClause_eq_none_of_column {n t : List Char} {typeWord : String}
    (hkey : Ascii keyword.toList) (hk : 'k' ∉ keyword.toList) (hne : keyword ≠ "")
    (hword : keyword.toList.all isWordChar = true) (hn : Word n name) (hg : Gap g)
    (ht : Word t typeWord) (hend : EndsReference cs) :
    keyClause keyword (n ++ g ++ t ++ cs) = none := by
  rw [Option.eq_none_iff_forall_ne_some]
  rintro ⟨names, rest⟩ h
  obtain ⟨l, hl, heq⟩ := exists_of_keyClause hkey hk h
  obtain ⟨g₁, tail, hg₁, hafter⟩ := hl.afterTwoWords hne hword rest
  rw [← heq, afterTwoWords_append hn hg ht hend.1, Option.some.injEq] at hafter
  refine hend.2 tail ?_
  rw [hafter, skipSpaces_append hg₁ (free_cons.2 (by decide))]

/-! ### Whole lines -/

variable {b : BodyLine}

theorem columnLine_eq (cs : List Char) :
    columnLine cs = (word cs).bind fun (name, cs) => (skipGap cs).bind fun cs =>
      (word cs).bind fun (typeWord, cs) =>
        some (.column name typeWord (many nextConstraint cs).1, (many nextConstraint cs).2) :=
  rfl

theorem bodyLine?_primaryKey (h : KeyClause "primary" cs names) :
    bodyLine? cs = some (.primaryKey names) := by
  have hread : keyClause "primary" (cs ++ []) = some (names, []) := keyClause_append (by decide) h
  rw [List.append_nil] at hread
  rw [bodyLine?, whole_eq_some_iff, primaryKeyLine, hread]
  rfl

theorem bodyLine?_foreignKey {targetNames : List String} (h : KeyClause "foreign" l names)
    (hg : Gap g) (hr : Reference r target targetNames) :
    bodyLine? (l ++ g ++ r) = some (.foreignKey names target targetNames) := by
  -- The two keywords differ in their first letter, so that the form for primary keys fails.
  have hnone : keyClause "primary" (l ++ g ++ r) = none := by
    obtain ⟨hp⟩ := h
    simp only [keyClause, List.append_assoc]
    rw [after_append_eq_none "primary" _ (by decide) (by decide) hp (by decide)]
    rfl
  obtain ⟨w, _, tail, hw, rfl⟩ := hr.exists_word
  have href : reference (w ++ tail ++ []) = some ((target, targetNames), []) :=
    reference_append hr ⟨free_nil, by simp [skipSpaces]⟩
  rw [List.append_nil] at href
  rw [bodyLine?, whole_eq_some_iff, primaryKeyLine, hnone, foreignKeyLine, List.append_assoc,
    keyClause_append (by decide) h]
  simp only [Option.bind_eq_bind, Option.bind_some]
  rw [skipGap_append hg hw.free, Option.bind_some, href]
  rfl

/-- A line of two words is read as a column if all that follows them is read as constraints. The
words may be `primary` and `key`; what decides is that no parenthesis follows them. -/
theorem bodyLine?_column_iff {n t : List Char} {typeWord : String} (hn : Word n name) (hg : Gap g)
    (ht : Word t typeWord) (hend : EndsReference cs) :
    bodyLine? (n ++ g ++ t ++ cs) = some b ↔
      (many nextConstraint cs).2 = [] ∧ b = .column name typeWord (many nextConstraint cs).1 := by
  have hnone {keyword : String} (hkey : Ascii keyword.toList) (hk : 'k' ∉ keyword.toList)
      (hne : keyword ≠ "") (hword : keyword.toList.all isWordChar = true) :
      keyClause keyword (n ++ g ++ t ++ cs) = none :=
    keyClause_eq_none_of_column hkey hk hne hword hn hg ht hend
  rw [bodyLine?, whole_eq_some_iff, primaryKeyLine,
    hnone (by decide) (by decide) (by decide) (by decide), foreignKeyLine,
    hnone (by decide) (by decide) (by decide) (by decide), columnLine_eq]
  simp only [List.append_assoc]
  rw [word_append hn hg.free, Option.bind_some, skipGap_append hg ht.free, Option.bind_some,
    word_append ht hend.1, Option.bind_some]
  change some _ = some _ ↔ _
  rw [Option.some.injEq, Prod.mk.injEq, and_comm, @eq_comm _ _ b]

theorem bodyLine?_column {n t : List Char} {typeWord : String} (hn : Word n name) (hg : Gap g)
    (ht : Word t typeWord) (hc : Constraints cs constraints) :
    bodyLine? (n ++ g ++ t ++ cs) = some (.column name typeWord constraints) := by
  rw [bodyLine?_column_iff hn hg ht (.of_constraints hc), many_nextConstraint hc]
  exact ⟨rfl, rfl⟩

theorem bodyLine?_of_isBodyLine (h : IsBodyLine cs b) : bodyLine? cs = some b := by
  cases h with
  | primaryKey h => exact bodyLine?_primaryKey h
  | foreignKey h hg hr => exact bodyLine?_foreignKey h hg hr
  | column hn hg ht hc => exact bodyLine?_column hn hg ht hc

/-- What is read is in the grammar, or a column all of whose line is read. -/
theorem isBodyLine_or_column_of_bodyLine? (h : bodyLine? cs = some b) :
    IsBodyLine cs b ∨ ∃ n g t cs' name typeWord constraints, Word n name ∧ Gap g ∧
      Word t typeWord ∧ many nextConstraint cs' = (constraints, []) ∧
        cs = n ++ g ++ t ++ cs' ∧ b = .column name typeWord constraints := by
  rw [bodyLine?, whole_eq_some_iff] at h
  simp only [Option.orElse_eq_orElse, Option.orElse_eq_or, Option.or_eq_some_iff] at h
  rcases h with h | ⟨-, h | ⟨-, h⟩⟩
  · simp only [primaryKeyLine, Option.bind_eq_bind, Option.bind_eq_some_iff, Option.some.injEq,
      Prod.mk.injEq, Prod.exists] at h
    obtain ⟨names, _, h, rfl, rfl⟩ := h
    obtain ⟨l, hl, rfl⟩ := exists_of_keyClause (by decide) (by decide) h
    rw [List.append_nil]
    exact .inl (.primaryKey hl)
  · simp only [foreignKeyLine, Option.bind_eq_bind, Option.bind_eq_some_iff, Option.some.injEq,
      Prod.mk.injEq, Prod.exists, skipGap_eq_some_iff] at h
    obtain ⟨names, _, h, _, ⟨g, hg, rfl, -⟩, target, targetNames, _, hr, rfl, rfl⟩ := h
    obtain ⟨l, hl, rfl⟩ := exists_of_keyClause (by decide) (by decide) h
    obtain ⟨r, href, rfl⟩ := exists_of_reference hr
    rw [List.append_nil, ← List.append_assoc]
    exact .inl (.foreignKey hl hg href)
  · simp only [columnLine_eq, Option.bind_eq_some_iff, word_eq_some_iff_append, Option.some.injEq,
      Prod.mk.injEq, Prod.exists, skipGap_eq_some_iff] at h
    obtain ⟨name, _, ⟨n, hn, rfl, -⟩, _, ⟨g, hg, rfl, -⟩, typeWord, cs', ⟨t, ht, rfl, -⟩, rfl,
      hend⟩ := h
    exact .inr ⟨n, g, t, cs', name, typeWord, _, hn, hg, ht, Prod.ext rfl hend, by simp, rfl⟩

theorem isBodyLine_of_bodyLine? (hcs : kelvinSign ∉ cs) (h : bodyLine? cs = some b) :
    IsBodyLine cs b := by
  obtain h | ⟨n, g, t, cs', name, typeWord, constraints, hn, hg, ht, hread, rfl, rfl⟩ :=
    isBodyLine_or_column_of_bodyLine? h
  · exact h
  · have hkelvin : kelvinSign ∉ cs' := fun hmem => hcs (List.mem_append_right _ hmem)
    obtain ⟨l, hl, hcs'⟩ := exists_constraints hkelvin
    rw [hread, List.append_nil] at hcs'
    rw [hread] at hl
    exact .column hn hg ht (hcs' ▸ hl)

theorem bodyLine?_eq_some_iff (hcs : kelvinSign ∉ cs) : bodyLine? cs = some b ↔ IsBodyLine cs b :=
  ⟨isBodyLine_of_bodyLine? hcs, bodyLine?_of_isBodyLine⟩

theorem schemaHead?_eq_some_iff : schemaHead? cs = some name ↔ IsSchemaHead cs name := by
  simp only [schemaHead?, whole_eq_some_iff, Option.bind_eq_bind, Option.bind_eq_some_iff,
    after_eq_some_iff (show Ascii "schema".toList by decide) fun hk => absurd hk (by decide),
    skipGap_eq_some_iff, word_eq_some_iff_append]
  constructor
  · rintro ⟨_, ⟨k, hk, rfl⟩, _, ⟨g, hg, rfl, -⟩, w, hw, rfl, -⟩
    rw [List.append_nil, ← List.append_assoc]
    exact .head hk hg hw
  · rintro @⟨k, g, w, _, hk, hg, hw⟩
    have hfree : Free isSpace (w ++ []) := hw.free
    rw [List.append_nil] at hfree
    exact ⟨_, ⟨_, hk, List.append_assoc ..⟩, _, ⟨_, hg, rfl, hfree⟩, _, hw,
      (List.append_nil _).symm, free_nil⟩

theorem tableHead?_eq_some_iff : tableHead? cs = some name ↔ IsTableHead cs name := by
  simp only [tableHead?, whole_eq_some_iff, Option.bind_eq_bind, Option.bind_eq_some_iff,
    after_eq_some_iff (show Ascii "table".toList by decide) fun hk => absurd hk (by decide),
    skipGap_eq_some_iff, word_eq_some_iff_append, skipSymbol_eq_some_iff, Prod.exists,
    Option.some.injEq, Prod.mk.injEq]
  constructor
  · rintro ⟨_, ⟨k, hk, rfl⟩, _, ⟨g, hg, rfl, -⟩, _, cs', ⟨w, hw, rfl, -⟩, _, h, rfl, rfl⟩
    obtain ⟨g₁, hg₁, hcs'⟩ := exists_spaces_append_skipSpaces cs'
    rw [h] at hcs'
    subst hcs'
    simp only [← List.append_assoc]
    exact .head hk hg hw hg₁
  · rintro @⟨k, g, w, g₁, _, hk, hg, hw, hg₁⟩
    refine ⟨g ++ (w ++ (g₁ ++ ['{'])), ⟨k, hk, ?_⟩, _, ⟨g, hg, rfl, ?_⟩, _, _, ⟨w, hw, rfl, ?_⟩,
      [], ?_, rfl, rfl⟩
    · simp only [List.append_assoc]
    · exact hw.free
    · exact hg₁.free (free_cons.2 (by decide))
    · exact skipSpaces_append hg₁ (free_cons.2 (by decide))

end

end Overlay.SchemaText.Grammar
