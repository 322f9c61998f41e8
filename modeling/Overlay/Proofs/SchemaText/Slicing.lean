import Overlay.Proofs.SchemaText.Boundary
import Overlay.SchemaText.Reader

/-!
# Reading without cutting a character

The reader here is the reader of schema texts with every cut behind a number of bytes made where it
is due: at each keyword that is spelled at the start of a text and at the start of each comment. A
cut inside a character ends it. No text does so, and the reader gives what `Schema.read` gives
(`Schema.read_never_aborts`).
-/

namespace Overlay.SchemaText.Sliced

open Text SchemaText.Grammar

/-- A phrase that cuts its text by bytes. -/
abbrev Phrase (α : Type) := List Char → OptionT (Except Abort) (α × List Char)

/-- A step that cuts texts by bytes and has errors of its own. -/
abbrev Step := ExceptT Error (Except Abort)

/-- What is read without a cut. -/
def reads {α : Type} (o : Option α) : OptionT (Except Abort) α :=
  OptionT.mk (.ok o)

/-- What comes of a step without a cut. -/
def settled {α : Type} (x : Except Error α) : Step α :=
  ExceptT.mk (.ok x)

/-! ### Phrases -/

/-- What follows a keyword, which is cut off by the number of its bytes. -/
def after (keyword : String) (cs : List Char) : OptionT (Except Abort) (List Char) := do
  if spells keyword.toList cs then
    let (_, rest) ← OptionT.lift (cut (utf8Length keyword.toList) cs)
    pure rest
  else reads none

/-- Reads `item` as often as it succeeds. -/
def many {α : Type} (item : Phrase α) (cs : List Char) : Except Abort (List α × List Char) := do
  match ← (item cs).run with
  | none => pure ([], cs)
  | some (a, rest) =>
    if rest.length < cs.length then
      let (as, rest) ← many item rest
      pure (a :: as, rest)
    else pure ([], cs)
termination_by cs.length

/-- What a phrase reads from a text that it reads to the end. -/
def whole {α : Type} (phrase : Phrase α) (cs : List Char) : Except Abort (Option α) := do
  match ← (phrase cs).run with
  | some (a, []) => pure (some a)
  | _ => pure none

/-- The target of a reference and its columns, if they are listed. -/
def reference : Phrase (String × List String) := fun cs => do
  let cs ← after "references" cs
  let (target, cs) ← reads (word (← reads (skipGap cs)))
  match nameList (skipSpaces cs) with
  | some (columns, cs) => pure ((target, columns), cs)
  | none => pure ((target, []), cs)

/-- A constraint of a column. -/
def constraint : Phrase Constraint := fun cs =>
  (fun ((target, columns), cs) => (.references target columns, cs)) <$> reference cs <|>
  (.primaryKey, ·) <$> after "primary_key" cs <|>
  (.notNull, ·) <$> after "not_null" cs <|>
  (.nullable, ·) <$> after "nullable" cs

/-- The words `word key` and the list of names behind them. -/
def keyClause (keyword : String) : Phrase (List String) := fun cs => do
  let cs ← reads (skipGap (← after keyword cs))
  let cs ← after "key" cs
  reads (nameList (skipSpaces cs))

/-- A primary key. -/
def primaryKeyLine : Phrase BodyLine := fun cs => do
  let (columns, cs) ← keyClause "primary" cs
  pure (.primaryKey columns, cs)

/-- A foreign key. -/
def foreignKeyLine : Phrase BodyLine := fun cs => do
  let (columns, cs) ← keyClause "foreign" cs
  let ((target, targetColumns), cs) ← reference (← reads (skipGap cs))
  pure (.foreignKey columns target targetColumns, cs)

/-- A column with its constraints. -/
def columnLine : Phrase BodyLine := fun cs => do
  let (name, cs) ← reads (word cs)
  let (typeWord, cs) ← reads (word (← reads (skipGap cs)))
  let (constraints, cs) ← OptionT.lift (many (fun cs => do constraint (← reads (skipGap cs))) cs)
  pure (.column name typeWord constraints, cs)

/-- The line as a line inside a table. -/
def bodyLine? : List Char → Except Abort (Option BodyLine) :=
  whole fun cs => primaryKeyLine cs <|> foreignKeyLine cs <|> columnLine cs

/-- The name in a line that is the head of a schema. -/
def schemaHead? : List Char → Except Abort (Option String) :=
  whole fun cs => do reads (word (← reads (skipGap (← after "schema" cs))))

/-- The name in a line that is the head of a table. -/
def tableHead? : List Char → Except Abort (Option String) :=
  whole fun cs => do
    let (name, cs) ← reads (word (← reads (skipGap (← after "table" cs))))
    let cs ← reads (skipSymbol '\x7b' (skipSpaces cs))
    pure (name, cs)

/-! ### Lines -/

/-- Takes in a line outside any table. -/
def topLine (d : Draft) (n : Nat) (line : List Char) : Step Draft := do
  match ← schemaHead? line with
  | some name =>
    if d.name.isSome then throw (.text n .schemaTwice) else pure { d with name := some name }
  | none =>
    match ← tableHead? line with
    | some table =>
      if d.name.isNone then throw (.text n .tableBeforeSchema)
      else pure { d with current := some (.start n table) }
    | none => throw (.text n (.unknownStatement (String.ofList line)))

/-- Takes in a line inside the table `t` that does not close it. -/
def innerLine (d : Draft) (t : OpenTable) (n : Nat) (line : List Char) : Step Draft := do
  match ← bodyLine? line with
  | none => throw (.text n (.invalidBodyLine (String.ofList line)))
  | some body =>
    match t.addLine body with
    | .ok t => pure { d with current := some t }
    | .error fault => throw (.text n fault)

/-- Takes in a line with its number: cuts off its comment and the white space around the rest, and
goes on if something is left. -/
def step (d : Draft) : List Char × Nat → Step Draft
  | (raw, n) => do
    let line := trim (← stripComment raw)
    if line.isEmpty then pure d
    else
      match d.current with
      | none => topLine d n line
      | some t => if line = ['\x7d'] then settled (d.closeTable t n) else innerLine d t n line

/-- The schema that a text describes. -/
def read (text : String) : Except Abort (Except Error Schema) := ExceptT.run do
  let draft ← ((lines text.toList).zipIdx 1).foldlM step Draft.empty
  settled do
    let schema ← (← draft.finish).resolve
    schema.validate
    .ok schema

/-! ### Nothing is cut inside a character -/

/-- The keywords of schema texts. -/
def keywords : List String :=
  ["schema", "table", "references", "primary_key", "not_null", "nullable", "primary", "foreign",
    "key"]

section

variable {α β : Type} {keyword : String} {cs : List Char}

theorem boundary_of_keyword (hkeyword : keyword ∈ keywords)
    (h : spells keyword.toList cs = true) : Boundary (utf8Length keyword.toList) cs := by
  have hfits : ∀ keyword ∈ keywords, Ascii keyword.toList ∧ FitsKelvinSign keyword.toList := by
    decide +kernel
  obtain ⟨hascii, hfits⟩ := hfits keyword hkeyword
  exact boundary_of_spells hascii hfits h

/-- A keyword is cut off as `SchemaText.after` does it. -/
theorem after_eq (hkeyword : keyword ∈ keywords) (cs : List Char) :
    after keyword cs = reads (SchemaText.after keyword cs) := by
  rw [after, SchemaText.after, afterKeyword]
  split
  · next h =>
    obtain ⟨⟨front, rest⟩, hcut⟩ := boundary_iff.1 (boundary_of_keyword hkeyword h)
    rw [dropBytes_eq, cut, hcut]
    rfl
  · rfl

/-- Of a keyword whose `k` stands elsewhere a text could cut KELVIN SIGN. -/
example : (after "like" ['l', 'i', kelvinSign]).run = .error .insideCharacter := rfl

theorem reads_bind {o : Option α} {k : α → OptionT (Except Abort) β} {f : α → Option β}
    (h : ∀ a, k a = reads (f a)) : reads o >>= k = reads (o >>= f) := by
  cases o with
  | none => rfl
  | some a => exact h a

theorem reads_orElse (o o' : Option α) : (reads o <|> reads o') = reads (o <|> o') := by
  cases o <;> rfl

theorem map_reads (f : α → β) (o : Option α) : f <$> reads o = reads (o.map f) := by
  cases o <;> rfl

theorem many_eq {item : Phrase α} {item' : Text.Phrase α} (h : ∀ cs, item cs = reads (item' cs))
    (cs : List Char) : many item cs = .ok (Text.many item' cs) := by
  fun_induction Text.many item' cs with
  | case1 cs hnone =>
    rw [many, h, hnone]
    rfl
  | case2 cs a rest hsome hlt as rest' hmany ih =>
    rw [many, h, hsome]
    change (if rest.length < cs.length then _ else _) = _
    rw [if_pos hlt, ih, hmany]
    rfl
  | case3 cs a rest hsome hlt =>
    rw [many, h, hsome]
    change (if rest.length < cs.length then _ else _) = _
    rw [if_neg hlt]
    rfl

theorem whole_eq {phrase : Phrase α} {phrase' : Text.Phrase α}
    (h : ∀ cs, phrase cs = reads (phrase' cs)) (cs : List Char) :
    whole phrase cs = .ok (Text.whole phrase' cs) := by
  rw [whole, Text.whole, h]
  rcases phrase' cs with _ | ⟨a, _ | ⟨c, rest⟩⟩ <;> rfl

theorem reference_eq (cs : List Char) : reference cs = reads (SchemaText.reference cs) := by
  rw [reference, after_eq (by decide)]
  refine reads_bind fun cs => reads_bind fun cs => reads_bind fun (target, cs) => ?_
  dsimp only
  cases nameList (skipSpaces cs) <;> rfl

theorem constraint_eq (cs : List Char) : constraint cs = reads (SchemaText.constraint cs) := by
  rw [constraint, reference_eq, after_eq (by decide), after_eq (by decide), after_eq (by decide)]
  simp only [map_reads, reads_orElse]
  rfl

theorem keyClause_eq (hkeyword : keyword ∈ keywords) (cs : List Char) :
    keyClause keyword cs = reads (SchemaText.keyClause keyword cs) := by
  rw [keyClause, after_eq hkeyword]
  refine reads_bind fun cs => reads_bind fun cs => ?_
  rw [after_eq (by decide)]
  exact reads_bind fun cs => rfl

theorem primaryKeyLine_eq (cs : List Char) :
    primaryKeyLine cs = reads (SchemaText.primaryKeyLine cs) := by
  rw [primaryKeyLine, keyClause_eq (by decide)]
  exact reads_bind fun (columns, cs) => rfl

theorem foreignKeyLine_eq (cs : List Char) :
    foreignKeyLine cs = reads (SchemaText.foreignKeyLine cs) := by
  rw [foreignKeyLine, keyClause_eq (by decide)]
  refine reads_bind fun (columns, cs) => reads_bind fun cs => ?_
  rw [reference_eq]
  exact reads_bind fun ((target, targetColumns), cs) => rfl

theorem columnLine_eq (cs : List Char) : columnLine cs = reads (SchemaText.columnLine cs) := by
  have hitem (cs : List Char) : (do constraint (← reads (skipGap cs))) =
      reads (do SchemaText.constraint (← skipGap cs)) :=
    reads_bind constraint_eq
  rw [columnLine]
  refine reads_bind fun (name, cs) => reads_bind fun cs => reads_bind fun (typeWord, cs) => ?_
  dsimp only
  rw [many_eq hitem]
  rfl

theorem bodyLine?_eq (cs : List Char) : bodyLine? cs = .ok (SchemaText.bodyLine? cs) := by
  refine whole_eq (fun cs => ?_) cs
  rw [primaryKeyLine_eq, foreignKeyLine_eq, columnLine_eq, reads_orElse, reads_orElse]

theorem schemaHead?_eq (cs : List Char) : schemaHead? cs = .ok (SchemaText.schemaHead? cs) := by
  refine whole_eq (fun cs => ?_) cs
  rw [after_eq (by decide)]
  exact reads_bind fun cs => reads_bind fun cs => rfl

theorem tableHead?_eq (cs : List Char) : tableHead? cs = .ok (SchemaText.tableHead? cs) := by
  refine whole_eq (fun cs => ?_) cs
  rw [after_eq (by decide)]
  exact reads_bind fun cs => reads_bind fun cs => reads_bind fun (name, cs) =>
    reads_bind fun _ => rfl

/-! ### The reader -/

theorem settled_bind {x : Except Error α} {k : α → Step β} {f : α → Except Error β}
    (h : ∀ a, k a = settled (f a)) : settled x >>= k = settled (x >>= f) := by
  cases x with
  | error e => rfl
  | ok a => exact h a

theorem lift_bind (a : α) (k : α → Step β) :
    (liftM (Except.ok a : Except Abort α) : Step α) >>= k = k a := rfl

theorem topLine_eq (d : Draft) (n : Nat) (line : List Char) :
    topLine d n line = settled (d.topLine n line) := by
  rw [topLine, Draft.topLine, schemaHead?_eq, lift_bind]
  cases SchemaText.schemaHead? line with
  | some name =>
    dsimp only
    split <;> rfl
  | none =>
    dsimp only
    rw [tableHead?_eq, lift_bind]
    cases SchemaText.tableHead? line with
    | some table =>
      dsimp only
      split <;> rfl
    | none => rfl

theorem innerLine_eq (d : Draft) (t : OpenTable) (n : Nat) (line : List Char) :
    innerLine d t n line = settled (d.innerLine t n line) := by
  rw [innerLine, Draft.innerLine, bodyLine?_eq, lift_bind]
  cases SchemaText.bodyLine? line with
  | none => rfl
  | some body =>
    dsimp only
    cases t.addLine body <;> rfl

/-- A step over a line as it stands is one over its content, if there is any. -/
theorem step_eq (d : Draft) (raw : List Char) (n : Nat) :
    step d (raw, n) =
      settled (if (content raw).isEmpty then .ok d else d.step (n, content raw)) := by
  rw [step, stripComment_eq, lift_bind, ← content]
  dsimp only
  split
  · rfl
  · rw [Draft.step]
    cases d.current with
    | none => exact topLine_eq d n (content raw)
    | some t =>
      dsimp only
      split
      · rfl
      · exact innerLine_eq d t n (content raw)

theorem foldlM_settled {σ : Type} {step : σ → α → Step σ} {step' : σ → α → Except Error σ}
    (h : ∀ s a, step s a = settled (step' s a)) (l : List α) (s : σ) :
    l.foldlM step s = settled (l.foldlM step' s) := by
  induction l generalizing s with
  | nil => rfl
  | cons a l ih =>
    rw [List.foldlM_cons, List.foldlM_cons, h]
    exact settled_bind ih

/-- The lines that have content are taken in as the lines of the text are. -/
theorem foldlM_contentLines (text : List Char) (d : Draft) :
    (contentLines text).foldlM Draft.step d = ((lines text).zipIdx 1).foldlM (fun d (raw, n) =>
      if (content raw).isEmpty then .ok d else d.step (n, content raw)) d := by
  rw [contentLines, List.foldlM_filterMap, List.zipIdx_map, List.foldlM_map]
  congr 1
  funext d (raw, n)
  dsimp only [Prod.map, id]
  cases (content raw).isEmpty <;> rfl

/-- The sliced reader gives what the reader of the program gives. -/
theorem read_eq (text : String) : read text = .ok (Schema.read text) := by
  have hstep (d : Draft) (numbered : List Char × Nat) : step d numbered =
      settled (if (content numbered.1).isEmpty then .ok d
        else d.step (numbered.2, content numbered.1)) :=
    step_eq d numbered.1 numbered.2
  rw [read, foldlM_settled hstep, Schema.read, declared, foldlM_contentLines, bind_assoc]
  exact congrArg ExceptT.run (settled_bind fun draft => rfl)

end

end Overlay.SchemaText.Sliced

namespace Overlay

open Text SchemaText

/-- Reading a schema text never cuts a character. Wherever a keyword is spelled, the number of its
bytes is a boundary of the text, and so is the position of a comment in its line; so the reader that
ends at a cut inside a character ends at none and gives a schema or an error on every text. -/
theorem Schema.read_never_aborts :
    (∀ keyword ∈ Sliced.keywords, ∀ cs, spells keyword.toList cs = true →
      Boundary (utf8Length keyword.toList) cs) ∧
    (∀ line n, commentStart? line = some n → Boundary n line) ∧
    ∀ text, Sliced.read text = .ok (read text) :=
  ⟨fun _ hkeyword _ => Sliced.boundary_of_keyword hkeyword,
    fun _ _ => boundary_of_commentStart?, Sliced.read_eq⟩

/-- KELVIN SIGN at the end of a line takes the bytes of `key`. -/
theorem Schema.read_never_aborts_kelvinSign :
    Sliced.read "schema s\ntable t\x7b\nk int primary_\u212a # key\n\x7d" =
      .ok (.ok
        { name := "s"
          tables :=
            [{ name := "t"
               columns := [{ name := "k", type := .integer, nullable := false }]
               primaryKey := some ["k"]
               foreignKeys := [] }] }) := by
  obtain ⟨-, -, hread⟩ := read_never_aborts
  rw [hread]
  exact congrArg Except.ok (by decide +kernel)

end Overlay
