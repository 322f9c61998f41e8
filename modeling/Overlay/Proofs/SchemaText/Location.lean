import Mathlib.Data.List.Induction
import Overlay.Proofs.Schema.Resolution
import Overlay.Proofs.SchemaText.Layout

/-!
# Where a text is wrong

The line at which a text is found wrong is one of its lines. A fault that is found while the lines
are read is final: nothing that follows the text can mend it or come before it. What is only found
at the end of a text is that the last table is not closed, and then the line is that of its head, or
that there is no schema head (`Schema.located_of_read`).
-/

namespace Overlay

open SchemaText Text

/-! ### Numbers of lines -/

namespace Text

section

variable {text line : List Char} {n : Nat}

theorem mem_contentLines_iff :
    (n, line) ∈ contentLines text ↔
      line ≠ [] ∧ ∃ i l, (lines text)[i]? = some l ∧ content l = line ∧ n = i + 1 := by
  simp only [contentLines, List.mem_filterMap, Prod.exists, List.mem_zipIdx_iff_le_and_getElem?_sub,
    List.getElem?_map, Option.map_eq_some_iff]
  constructor
  · rintro ⟨l, m, ⟨hle, raw, hraw, rfl⟩, h⟩
    split at h
    · cases h
    · next hne =>
      obtain ⟨rfl, rfl⟩ := Prod.mk.inj (Option.some.inj h)
      exact ⟨by simpa using hne, m - 1, raw, hraw, rfl, by omega⟩
  · rintro ⟨hne, i, raw, hraw, rfl, rfl⟩
    refine ⟨content raw, i + 1, ⟨by omega, raw, by simpa using hraw, rfl⟩, ?_⟩
    rw [if_neg (by simpa using hne)]

theorem le_of_mem_contentLines (h : (n, line) ∈ contentLines text) :
    1 ≤ n ∧ n ≤ (lines text).length := by
  obtain ⟨-, i, l, hl, -, rfl⟩ := mem_contentLines_iff.1 h
  obtain ⟨hi, -⟩ := List.getElem?_eq_some_iff.1 hl
  omega

/-- The numbers of the lines grow. -/
theorem pairwise_contentLines (text : List Char) :
    (contentLines text).Pairwise fun a b => a.1 < b.1 := by
  have hnumbers : (((lines text).map content).zipIdx 1).Pairwise fun a b => a.2 < b.2 := by
    rw [← List.pairwise_map, List.zipIdx_map_snd]
    exact List.pairwise_lt_range'
  unfold contentLines
  rw [List.pairwise_filterMap]
  apply hnumbers.imp
  intro a b hlt a' ha b' hb
  simp only [Option.ite_none_left_eq_some, Option.some.injEq] at ha hb
  rw [← ha.2, ← hb.2]
  exact hlt

/-- The text is empty or its last line has a line break. -/
def EndsLine (text : List Char) : Prop :=
  ∀ c ∈ text.getLast?, c = '\n'

theorem EndsLine.of_cons {c : Char} (h : EndsLine (c :: text)) : EndsLine text := by
  intro d hd
  cases text with
  | nil => cases hd
  | cons e text => exact h d (by rwa [List.getLast?_cons_cons])

theorem lines_eq_nil_iff : lines text = [] ↔ text = [] := by
  fun_cases lines text <;> simp_all

theorem lines_append (h : EndsLine text) (more : List Char) :
    lines (text ++ more) = lines text ++ lines more := by
  fun_induction lines text with
  | case1 => rfl
  | case2 cs ih => exact congrArg ([] :: ·) (ih h.of_cons)
  | case3 cs ih => exact congrArg ([] :: ·) (ih h.of_cons.of_cons)
  | case4 c cs hc _ hnil ih =>
    rw [lines_eq_nil_iff.1 hnil] at h
    exact absurd (h c rfl) hc
  | case5 c cs hc hreturn line rest hlines ih =>
    have hnewline (hc : c = '\r') (tail : List Char) : cs ++ more ≠ '\n' :: tail := by
      cases cs with
      | nil => cases hlines
      | cons d cs => exact fun hcs => hreturn cs hc (by rw [(List.cons.inj hcs).1])
    rw [List.cons_append, lines_cons hc hnewline, ih h.of_cons, hlines]
    rfl

/-- What follows a text that ends with a line break adds lines behind its lines. -/
theorem exists_contentLines_append (h : EndsLine text) (more : List Char) :
    ∃ behind, contentLines (text ++ more) = contentLines text ++ behind := by
  unfold contentLines
  rw [lines_append h, List.map_append, List.zipIdx_append, List.filterMap_append]
  exact ⟨_, rfl⟩

end

end Text

/-! ### Faults that are found while the lines are read -/

namespace SchemaText

/-- A fault that is only found at the end of a text. -/
def AtEnd (fault : TextFault) : Prop :=
  fault = .noSchema ∨ ∃ name, fault = .unclosedTable name

section

variable {t t' : OpenTable} {d d' : Draft} {n m : Nat} {line : List Char} {e : Error}
  {fault : TextFault}

theorem OpenTable.addLine_frame {b : BodyLine} (h : t.addLine b = .ok t') :
    t'.line = t.line ∧ t'.name = t.name := by
  rw [(addLine_eq_ok_iff.1 h).2]
  exact ⟨rfl, rfl⟩

theorem OpenTable.not_atEnd_of_addLine {b : BodyLine} (h : t.addLine b = .error fault) :
    ¬AtEnd fault := by
  cases b with
  | primaryKey columns =>
    simp only [addLine] at h
    split at h <;> cases h
    simp [AtEnd]
  | foreignKey columns target targetColumns => cases h
  | column name typeWord constraints =>
    simp only [addLine] at h
    split at h <;> cases h
    simp [AtEnd]

theorem OpenTable.exists_of_close_eq_error (h : t.close = .error e) :
    ∃ fault, e = .text t.line fault ∧ ¬AtEnd fault := by
  unfold close at h
  split at h <;> cases h
  exact ⟨_, rfl, by simp [AtEnd]⟩

theorem Draft.exists_of_topLine_eq_error (h : d.topLine n line = .error e) :
    ∃ fault, e = .text n fault ∧ ¬AtEnd fault := by
  unfold topLine at h
  split at h
  · split at h <;> cases h
    exact ⟨_, rfl, by simp [AtEnd]⟩
  · split at h
    · split at h <;> cases h
      exact ⟨_, rfl, by simp [AtEnd]⟩
    · cases h
      exact ⟨_, rfl, by simp [AtEnd]⟩

theorem Draft.exists_of_innerLine_eq_error (h : d.innerLine t n line = .error e) :
    ∃ fault, e = .text n fault ∧ ¬AtEnd fault := by
  unfold innerLine at h
  split at h
  · cases h
    exact ⟨_, rfl, by simp [AtEnd]⟩
  · split at h
    · cases h
    · next hline =>
      cases h
      exact ⟨_, rfl, OpenTable.not_atEnd_of_addLine hline⟩

theorem Draft.exists_of_closeTable_eq_error (h : d.closeTable t n = .error e) :
    ∃ m fault, e = .text m fault ∧ ¬AtEnd fault ∧ (m = n ∨ m = t.line) := by
  obtain hclose | ⟨table, -, h⟩ := bind_eq_error_iff.1 h
  · obtain ⟨fault, rfl, hfault⟩ := OpenTable.exists_of_close_eq_error hclose
    exact ⟨_, _, rfl, hfault, .inr rfl⟩
  · split at h <;> cases h
    exact ⟨_, _, rfl, by simp [AtEnd], .inl rfl⟩

/-- A step that fails finds a fault of the line or, when the line closes a table, of that table. -/
theorem Draft.exists_of_step_eq_error (h : d.step (n, line) = .error e) :
    ∃ m fault, e = .text m fault ∧ ¬AtEnd fault ∧
      (m = n ∨ ∃ t, d.current = some t ∧ m = t.line) := by
  simp only [step] at h
  split at h
  · obtain ⟨fault, rfl, hfault⟩ := exists_of_topLine_eq_error h
    exact ⟨_, _, rfl, hfault, .inl rfl⟩
  · next t hcurrent =>
    split at h
    · obtain ⟨m, fault, rfl, hfault, hm⟩ := exists_of_closeTable_eq_error h
      exact ⟨_, _, rfl, hfault, hm.imp_right fun hm => ⟨t, hcurrent, hm⟩⟩
    · obtain ⟨fault, rfl, hfault⟩ := exists_of_innerLine_eq_error h
      exact ⟨_, _, rfl, hfault, .inl rfl⟩

/-! ### Open tables -/

/-- Behind a line that is no closing brace the same table is open. -/
theorem Draft.current_of_step_inside (h : d.step (n, line) = .ok d') (hcurrent : d.current = some t)
    (hline : line ≠ ['}']) :
    ∃ t', d'.current = some t' ∧ t'.line = t.line ∧ t'.name = t.name := by
  simp only [step, hcurrent, if_neg hline] at h
  unfold innerLine at h
  split at h
  · cases h
  · split at h
    · next t' hadd =>
      cases h
      exact ⟨t', rfl, OpenTable.addLine_frame hadd⟩
    · cases h

theorem Draft.current_of_step_brace (h : d.step (n, ['}']) = .ok d')
    (hcurrent : d.current = some t) : d'.current = none := by
  simp only [step, hcurrent, if_true] at h
  obtain ⟨table, -, h⟩ := bind_eq_ok_iff.1 h
  split at h <;> cases h
  rfl

/-- Between tables a line that opens a table is the head of one. -/
theorem Draft.head_of_step_between (h : d.step (n, line) = .ok d') (hcurrent : d.current = none)
    (hcurrent' : d'.current = some t) :
    ∃ name, tableHead? line = some name ∧ d' = { d with current := some (.start n name) } := by
  simp only [step, hcurrent] at h
  unfold topLine at h
  split at h
  · split at h
    · cases h
    · cases h
      rw [hcurrent] at hcurrent'
      cases hcurrent'
  · split at h
    · next name hname =>
      split at h <;> cases h
      exact ⟨name, hname, rfl⟩
    · cases h

/-- Lines without a closing brace leave the open table open. -/
theorem Draft.current_of_run_inside {numbered : List (Nat × List Char)}
    (h : numbered.foldlM step d = .ok d') (hcurrent : d.current = some t)
    (hlines : ∀ l ∈ numbered, l.2 ≠ ['}']) : d'.current.isSome := by
  induction numbered generalizing d t with
  | nil =>
    obtain rfl := Except.ok.inj h
    rw [hcurrent]
    rfl
  | cons l numbered ih =>
    obtain ⟨hl, hlines⟩ := List.forall_mem_cons.1 hlines
    obtain ⟨d₁, hstep, hrun⟩ := bind_eq_ok_iff.1 h
    obtain ⟨t₁, hcurrent₁, -⟩ := current_of_step_inside hstep hcurrent hl
    exact ih hrun hcurrent₁ hlines

/-- Behind the lines `before` the line `head` is taken in as the head of the table `name`. -/
def OpensTable (before : List (Nat × List Char)) (n : Nat) (head : List Char) (name : String) :
    Prop :=
  ∃ d, before.foldlM Draft.step .empty = .ok d ∧ d.current = none ∧ tableHead? head = some name ∧
    d.step (n, head) = .ok { d with current := some (.start n name) }

/-- An open table was opened by the line of its head, and no later line is a closing brace. -/
theorem Draft.exists_head_of_current {numbered : List (Nat × List Char)}
    (h : numbered.foldlM step empty = .ok d) (hcurrent : d.current = some t) :
    ∃ before head after, numbered = before ++ (t.line, head) :: after ∧
      OpensTable before t.line head t.name ∧ ∀ l ∈ after, l.2 ≠ ['}'] := by
  induction numbered using List.reverseRecOn generalizing d t with
  | nil =>
    obtain rfl := Except.ok.inj h
    cases hcurrent
  | append_singleton numbered l ih =>
    obtain ⟨n, line⟩ := l
    rw [List.foldlM_append, bind_eq_ok_iff] at h
    obtain ⟨d₁, hrun, hstep⟩ := h
    rw [List.foldlM_cons, bind_eq_ok_iff] at hstep
    obtain ⟨_, hstep, ⟨⟩⟩ := hstep
    cases hcurrent₁ : d₁.current with
    | none =>
      obtain ⟨name, hhead, rfl⟩ := head_of_step_between hstep hcurrent₁ hcurrent
      cases hcurrent
      exact ⟨numbered, line, [], rfl, ⟨d₁, hrun, hcurrent₁, hhead, hstep⟩, by simp⟩
    | some t₁ =>
      by_cases hline : line = ['}']
      · subst hline
        rw [current_of_step_brace hstep hcurrent₁] at hcurrent
        cases hcurrent
      · obtain ⟨before, head, after, rfl, hopens, hafter⟩ := ih hrun hcurrent₁
        obtain ⟨t', ht', hframe⟩ := current_of_step_inside hstep hcurrent₁ hline
        obtain rfl := Option.some.inj (hcurrent.symm.trans ht')
        refine ⟨before, head, after ++ [(n, line)], ?_, ?_, ?_⟩
        · rw [hframe.1, List.append_assoc, List.cons_append]
        · rwa [hframe.1, hframe.2]
        · exact List.forall_mem_append.2 ⟨hafter, by simpa using hline⟩

/-- While a table stays open no line is taken in as the head of another. -/
theorem OpensTable.current_eq_none {before between : List (Nat × List Char)}
    {head head' : List Char} {name name' : String} (h : OpensTable before n head name)
    (hbetween : ∀ l ∈ between, l.2 ≠ ['}']) :
    ¬OpensTable (before ++ (n, head) :: between) m head' name' := by
  rintro ⟨d', hrun', hcurrent', -⟩
  obtain ⟨d, hrun, -, -, hstep⟩ := h
  rw [List.foldlM_append, hrun] at hrun'
  change (d.step (n, head) >>= fun d => between.foldlM Draft.step d) = _ at hrun'
  rw [hstep] at hrun'
  have hopen := Draft.current_of_run_inside hrun' rfl hbetween
  rw [hcurrent'] at hopen
  cases hopen

/-- A run fails at a line that it has read, with a fault that is not one of the end. -/
theorem Draft.exists_of_run_eq_error {numbered : List (Nat × List Char)}
    (h : numbered.foldlM step empty = .error e) :
    ∃ m fault, e = .text m fault ∧ ¬AtEnd fault ∧ ∃ line, (m, line) ∈ numbered := by
  obtain ⟨before, ⟨n, line⟩, after, d, rfl, hrun, hstep⟩ := foldlM_eq_error_iff.1 h
  obtain ⟨m, fault, rfl, hfault, rfl | ⟨t, hcurrent, rfl⟩⟩ := exists_of_step_eq_error hstep
  · exact ⟨m, fault, rfl, hfault, line, by simp⟩
  · obtain ⟨before, head, after, rfl, -⟩ := exists_head_of_current hrun hcurrent
    exact ⟨_, fault, rfl, hfault, head, by simp⟩

/-- At the end of a text it is found that a table is open, or that there is no schema head. -/
theorem Draft.finish_eq_error (h : d.finish = .error e) :
    (∃ t, d.current = some t ∧ e = .text t.line (.unclosedTable t.name)) ∨
      e = .text 1 .noSchema := by
  obtain ⟨name, tables, current⟩ := d
  cases current with
  | some t => exact .inl ⟨t, rfl, (Except.error.inj h).symm⟩
  | none =>
    cases name with
    | none => exact .inr (Except.error.inj h).symm
    | some name => cases h

end

end SchemaText

/-! ### Faults of keys have no line -/

/-- The error is not one of a line of a text. -/
def Error.Unplaced (e : Error) : Prop :=
  ∀ n fault, e ≠ .text n fault

section

variable {s : Schema} {t : Table} {fk : ForeignKey} {name : String} {e : Error}

theorem Table.unplaced_of_requireColumn (h : t.requireColumn name = .error e) : e.Unplaced := by
  unfold requireColumn at h
  split at h <;> cases h
  simp [Error.Unplaced]

theorem Table.unplaced_of_requireColumns {names : List String}
    (h : names.forM (fun name => discard (t.requireColumn name)) = .error e) : e.Unplaced := by
  obtain ⟨name, -, h⟩ := exists_of_forM_eq_error h
  cases hcolumn : t.requireColumn name with
  | ok c =>
    rw [hcolumn] at h
    cases h
  | error e' =>
    rw [hcolumn] at h
    cases h
    exact unplaced_of_requireColumn hcolumn

theorem Table.unplaced_of_checkPrimaryKey (h : t.checkPrimaryKey = .error e) : e.Unplaced := by
  unfold checkPrimaryKey at h
  split at h
  · cases h
  · cases h
    simp [Error.Unplaced]
  · obtain ⟨name, -, h⟩ := exists_of_forM_eq_error h
    obtain h | ⟨c, -, h⟩ := bind_eq_error_iff.1 h
    · exact unplaced_of_requireColumn h
    · split at h <;> cases h
      simp [Error.Unplaced]

theorem Table.unplaced_of_checkForeignKey (h : t.checkForeignKey s fk = .error e) :
    e.Unplaced := by
  unfold checkForeignKey at h
  split at h
  · cases h
    simp [Error.Unplaced]
  · split at h
    · cases h
      simp [Error.Unplaced]
    · obtain h | ⟨_, -, h⟩ := bind_eq_error_iff.1 h
      · exact unplaced_of_requireColumns h
      · exact unplaced_of_requireColumns h

theorem Schema.unplaced_of_validate (h : s.validate = .error e) : e.Unplaced := by
  obtain ⟨t, -, h⟩ := exists_of_forM_eq_error h
  obtain h | ⟨_, -, h⟩ := bind_eq_error_iff.1 h
  · exact Table.unplaced_of_checkPrimaryKey h
  · obtain ⟨fk, -, h⟩ := exists_of_forM_eq_error h
    exact Table.unplaced_of_checkForeignKey h

theorem Schema.unplaced_of_resolve (h : s.resolve = .error e) : e.Unplaced := by
  obtain ⟨_, t, fk, _, fault, -, -, -, rfl⟩ := exists_unresolvable_of_resolve h
  simp [Error.Unplaced]

/-- A fault of a line is found before references are resolved and keys are checked. -/
theorem Schema.read_eq_text_error_iff {text : String} {n : Nat} {fault : TextFault} :
    read text = .error (.text n fault) ↔ declared text.toList = .error (.text n fault) := by
  rw [read_eq_bind, bind_eq_error_iff, or_iff_left_iff_imp]
  rintro ⟨d, -, h⟩
  exfalso
  obtain h | ⟨s, -, h⟩ := bind_eq_error_iff.1 h
  · exact unplaced_of_resolve h n fault rfl
  · obtain h | ⟨_, -, h⟩ := bind_eq_error_iff.1 h
    · exact unplaced_of_validate h n fault rfl
    · cases h

end

/-! ### Wording -/

/-- Two texts with ends neither of which is an end of the other differ. -/
theorem append_ne_append_of_not_suffix {a b u v : String} (huv : ¬u.toList <:+ v.toList)
    (hvu : ¬v.toList <:+ u.toList) : a ++ u ≠ b ++ v := by
  intro h
  have hlist := congrArg String.toList h
  rw [String.toList_append, String.toList_append] at hlist
  have hu : u.toList <:+ b.toList ++ v.toList := ⟨a.toList, hlist⟩
  exact (List.suffix_or_suffix_of_suffix hu (List.suffix_append _ _)).elim huv hvu

/-- The wording of a fault says whether it is that of a table that is not closed. -/
theorem TextFault.eq_unclosedTable_of_message_eq {fault : TextFault} {name : String}
    (h : fault.message = (unclosedTable name).message) : fault = unclosedTable name := by
  cases fault with
  | unclosedTable other =>
    have hlist := congrArg String.toList h
    simp only [message.eq_def, String.toList_append, List.append_cancel_right_eq,
      List.append_cancel_left_eq, String.toList_inj] at hlist
    rw [hlist]
  | inlineAndClauseKey other =>
    -- Both wordings begin with the name of a table.
    exact absurd h (append_ne_append_of_not_suffix (by decide +kernel) (by decide +kernel))
  | unknownType word =>
    change "Unknown column type: " ++ word = _ at h
    have hstart := congrArg (fun wording => wording.toList.head?) h
    simp [message.eq_def] at hstart
  | _ =>
    have hstart := congrArg (fun wording => wording.toList.head?) h
    simp [message.eq_def] at hstart

/-! ### Faulty texts -/

namespace SchemaText

section

variable {text : List Char} {n m : Nat} {fault : TextFault} {name other : String}

/-- The line `n` of the text is taken in as the head of the table `name`. -/
def OpensTableAt (text : List Char) (n : Nat) (name : String) : Prop :=
  ∃ before head after, contentLines text = before ++ (n, head) :: after ∧
    OpensTable before n head name

/-- No line of the text behind the line `n` is a closing brace. -/
def OpenBehind (text : List Char) (n : Nat) : Prop :=
  ∀ i l, (lines text)[i]? = some l → n ≤ i → content l ≠ ['}']

theorem openBehind_of_contentLines {before after : List (Nat × List Char)} {head : List Char}
    (h : contentLines text = before ++ (n, head) :: after) (hafter : ∀ l ∈ after, l.2 ≠ ['}']) :
    OpenBehind text n := by
  intro i l hl hni hcontent
  have hmem : (i + 1, content l) ∈ before ++ (n, head) :: after := by
    rw [← h, mem_contentLines_iff]
    exact ⟨by simp [hcontent], i, l, hl, rfl, rfl⟩
  have hpairwise := h ▸ pairwise_contentLines text
  rw [List.mem_append, List.mem_cons] at hmem
  rcases hmem with hbefore | heq | hbehind
  · have hlt : i + 1 < n := (List.pairwise_append.1 hpairwise).2.2 _ hbefore _ List.mem_cons_self
    omega
  · obtain ⟨hn, -⟩ := Prod.mk.inj heq
    omega
  · exact hafter _ hbehind hcontent

/-- A table that stays open is the last one of which a head is taken in. -/
theorem OpensTableAt.le_of_stays_open {before after : List (Nat × List Char)} {head : List Char}
    (h : contentLines text = before ++ (n, head) :: after) (hopens : OpensTable before n head name)
    (hafter : ∀ l ∈ after, l.2 ≠ ['}']) (hother : OpensTableAt text m other) : m ≤ n := by
  obtain ⟨before', head', after', h', hopens'⟩ := hother
  have hpairwise := h ▸ pairwise_contentLines text
  rw [h, List.append_eq_append_iff] at h'
  obtain ⟨between, hbefore', hbetween⟩ | ⟨between, hbefore, hbetween⟩ := h'
  · cases between with
    | nil =>
      obtain ⟨hn, -⟩ := Prod.mk.inj (List.cons.inj hbetween).1
      omega
    | cons l between =>
      -- The other head would stand where the table `name` is still open.
      obtain ⟨rfl, hsplit⟩ := List.cons.inj hbetween
      have hinside : ∀ l ∈ between, l.2 ≠ ['}'] := fun l hl =>
        hafter l (hsplit ▸ List.mem_append_left _ hl)
      rw [hbefore'] at hopens'
      exact absurd hopens' (hopens.current_eq_none hinside)
  · cases between with
    | nil =>
      obtain ⟨hn, -⟩ := Prod.mk.inj (List.cons.inj hbetween).1
      omega
    | cons l between =>
      obtain ⟨rfl, -⟩ := List.cons.inj hbetween
      have hmem : (m, head') ∈ before := by simp [hbefore]
      have hlt : m < n := (List.pairwise_append.1 hpairwise).2.2 _ hmem _ List.mem_cons_self
      omega

/-- A text is found faulty at one of its lines while these are read, or at its end. -/
theorem declared_eq_error (h : declared text = .error (.text n fault)) :
    ((contentLines text).foldlM Draft.step Draft.empty = .error (.text n fault) ∧ ¬AtEnd fault ∧
        ∃ line, (n, line) ∈ contentLines text) ∨
      (∃ d t, (contentLines text).foldlM Draft.step Draft.empty = .ok d ∧ d.current = some t ∧
        n = t.line ∧ fault = .unclosedTable t.name) ∨
      n = 1 ∧ fault = .noSchema := by
  obtain hrun | ⟨d, hrun, hfinish⟩ := bind_eq_error_iff.1 h
  · obtain ⟨m, fault', heq, hfault, hmem⟩ := Draft.exists_of_run_eq_error hrun
    obtain ⟨rfl, rfl⟩ := Error.text.inj heq
    exact .inl ⟨hrun, hfault, hmem⟩
  · obtain ⟨t, hcurrent, heq⟩ | heq := Draft.finish_eq_error hfinish
    · obtain ⟨rfl, rfl⟩ := Error.text.inj heq
      exact .inr (.inl ⟨d, t, hrun, hcurrent, rfl, rfl⟩)
    · exact .inr (.inr (Error.text.inj heq))

theorem line_of_declared (h : declared text = .error (.text n fault)) :
    1 ≤ n ∧ n ≤ max 1 (lines text).length := by
  obtain ⟨-, -, line, hmem⟩ | ⟨d, t, hrun, hcurrent, rfl, -⟩ | ⟨rfl, -⟩ := declared_eq_error h
  · have hbounds := le_of_mem_contentLines hmem
    omega
  · obtain ⟨before, head, after, hsplit, -⟩ := Draft.exists_head_of_current hrun hcurrent
    have hmem : (t.line, head) ∈ contentLines text := by simp [hsplit]
    have hbounds := le_of_mem_contentLines hmem
    omega
  · omega

/-- What is found while the lines are read stays the first fault, whatever follows. -/
theorem declared_append (h : declared text = .error (.text n fault)) (hfault : ¬AtEnd fault)
    (hend : EndsLine text) (more : List Char) :
    declared (text ++ more) = .error (.text n fault) := by
  obtain ⟨hrun, -⟩ | ⟨d, t, -, -, -, rfl⟩ | ⟨-, rfl⟩ := declared_eq_error h
  · obtain ⟨behind, hbehind⟩ := exists_contentLines_append hend more
    rw [declared, hbehind, foldlM_append_of_eq_error hrun]
    rfl
  · exact absurd (.inr ⟨_, rfl⟩) hfault
  · exact absurd (.inl rfl) hfault

theorem unclosed_of_declared (h : declared text = .error (.text n (.unclosedTable name))) :
    OpensTableAt text n name ∧ (∀ m other, OpensTableAt text m other → m ≤ n) ∧
      OpenBehind text n := by
  obtain ⟨-, hfault, -⟩ | ⟨d, t, hrun, hcurrent, rfl, heq⟩ | ⟨-, heq⟩ := declared_eq_error h
  · exact absurd (.inr ⟨_, rfl⟩) hfault
  · obtain rfl := TextFault.unclosedTable.inj heq
    obtain ⟨before, head, after, hsplit, hopens, hafter⟩ :=
      Draft.exists_head_of_current hrun hcurrent
    refine ⟨⟨before, head, after, hsplit, hopens⟩, ?_, openBehind_of_contentLines hsplit hafter⟩
    exact fun m other => OpensTableAt.le_of_stays_open hsplit hopens hafter
  · cases heq

end

end SchemaText

/-- A fault of a text is placed at one of its lines, at the first one if there is none. If lines are
still to come it stays the same, unless its wording is that of a fault of the end: that a table is
not closed, which is placed at the last head of a table, or that there is no schema head. -/
theorem Schema.located_of_read {text : String} {n : Nat} {fault : TextFault}
    (h : read text = .error (.text n fault)) :
    (1 ≤ n ∧ n ≤ max 1 (lines text.toList).length) ∧
      (EndsLine text.toList → (∀ name, fault.message ≠ (TextFault.unclosedTable name).message) →
        fault.message ≠ TextFault.noSchema.message →
        ∀ more, read (text ++ more) = .error (.text n fault)) ∧
      ∀ name, fault.message = (TextFault.unclosedTable name).message →
        OpensTableAt text.toList n name ∧
          (∀ m other, OpensTableAt text.toList m other → m ≤ n) ∧ OpenBehind text.toList n := by
  rw [read_eq_text_error_iff] at h
  refine ⟨line_of_declared h, ?_, ?_⟩
  · intro hend hunclosed hnoSchema more
    have hfault : ¬AtEnd fault := by
      rintro (rfl | ⟨name, rfl⟩)
      · exact hnoSchema rfl
      · exact hunclosed name rfl
    rw [read_eq_text_error_iff, String.toList_append]
    exact declared_append h hfault hend more.toList
  · intro name hmessage
    obtain rfl := TextFault.eq_unclosedTable_of_message_eq hmessage
    exact unclosed_of_declared h

/-- The second table of the first text is not closed, since a comment does not close it. The fault
of the second text is one that nothing can mend. -/
theorem Schema.located_of_read_of_two :
    let unclosed := "schema s\ntable a\x7b\nid integer\n\x7d\n\ntable b\x7b\nid integer # \x7d\n"
    let unknown := "schema s\nx\n"
    read unclosed = .error (.text 6 (.unclosedTable "b")) ∧ OpensTableAt unclosed.toList 6 "b" ∧
      OpenBehind unclosed.toList 6 ∧
      ∀ more, read (unknown ++ more) = .error (.text 2 (.unknownStatement "x")) := by
  intro unclosed unknown
  have hopen : read unclosed = .error (.text 6 (.unclosedTable "b")) := by decide +kernel
  have hfinal : read unknown = .error (.text 2 (.unknownStatement "x")) := by decide +kernel
  obtain ⟨-, -, hunclosed⟩ := located_of_read hopen
  obtain ⟨hopens, -, hbehind⟩ := hunclosed "b" rfl
  obtain ⟨-, hmore, -⟩ := located_of_read hfinal
  refine ⟨hopen, hopens, hbehind, hmore ?_ ?_ ?_⟩
  · intro c hc
    have hlast : unknown.toList.getLast? = some '\n' := by decide +kernel
    exact Option.some.inj (hc.symm.trans hlast)
  · intro name hmessage
    cases TextFault.eq_unclosedTable_of_message_eq hmessage
  · decide +kernel

end Overlay
