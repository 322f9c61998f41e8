import Overlay.Plan.Basic
import Overlay.Proofs.Sql.Token

/-!
# Reading queries and statements

The query of a view, and the statements and conditions of a trigger, are read from their tokens. If
their names are words, what is read is what was written (`MergeQuery.read_of_worded`,
`RowWrite.reads_text`, `Statement.reads_findKey`, `Condition.reader_text`).
-/

namespace Overlay

open Sql

/-! ### Readers -/

namespace Sql

/-- The name of a column. -/
def columnName : Reader String
  | .word name :: ts => some (name, ts)
  | _ => none

/-- The qualified name of a relation. -/
def relationName : Reader Relation
  | .word schema :: .sign '.' :: .word name :: ts => some ({ schema, name }, ts)
  | _ => none

/-- A column behind the name of the row or relation that it belongs to. -/
def columnOf (owner : String) : Reader String
  | .word name :: .sign '.' :: .word column :: ts =>
    if name = owner then some (column, ts) else none
  | _ => none

/-- A column of an image of the trigger's row. -/
def imageColumn : Reader (RowImage × String) := fun ts =>
  match columnOf "OLD" ts with
  | some (column, ts) => some ((.old, column), ts)
  | none => (columnOf "NEW" ts).map fun (column, ts) => ((.new, column), ts)

/-- An equation. -/
def equation {α β : Type} (left : Reader α) (right : Reader β) : Reader (α × β) := fun ts => do
  let (a, ts) ← left ts
  let ts ← skip " = " ts
  let (b, ts) ← right ts
  some ((a, b), ts)

/-- The status that a number stands for. -/
def statusNumber : Reader RowStatus
  | .word "1" :: ts => some (.inserted, ts)
  | .word "2" :: ts => some (.updated, ts)
  | .word "3" :: ts => some (.deleted, ts)
  | _ => none

end Sql

/-- A query of the form that a merging view has. Both halves show the same columns, and the join is
over equal columns. -/
def MergeQuery.reader : Reader MergeQuery := fun ts => do
  let ts ← skip "SELECT " ts
  let (columns, ts) ← separated (columnOf "o") (.sign ',') ts
  let ts ← skip " FROM " ts
  let (base, ts) ← relationName ts
  let ts ← skip " AS o LEFT OUTER JOIN " ts
  let (shadow, ts) ← relationName ts
  let ts ← skip " AS m ON (" ts
  let (pairs, ts) ← separated (equation (columnOf "o") (columnOf "m")) (.word "AND") ts
  let ts ← skip ") WHERE m.ROW__STATUS IS NULL UNION ALL SELECT " ts
  let (columns', ts) ← separated columnName (.sign ',') ts
  let ts ← skip " FROM " ts
  let (shadow', ts) ← relationName ts
  let ts ← skip " WHERE ROW__STATUS <> " ts
  let (hidden, ts) ← statusNumber ts
  let key := pairs.map Prod.fst
  if columns' = columns ∧ shadow' = shadow ∧ pairs.map Prod.snd = key then
    some ({ columns, key, base, shadow, hidden }, ts)
  else none

/-- The query that a text stands for. -/
def MergeQuery.read (text : String) : Option MergeQuery :=
  match reader (tokens text) with
  | some (q, []) => some q
  | _ => none

/-- A row to be written, behind the verb: an image of the trigger's row, column by column, and a
status in its column. -/
def RowWrite.reader (mode : WriteMode) : Reader RowWrite := fun ts => do
  let ts ← skip " INTO " ts
  let (target, ts) ← relationName ts
  let ts ← skip " (" ts
  let (names, ts) ← separated columnName (.sign ',') ts
  let ts ← skip ") VALUES (" ts
  let (values, ts) ← separated imageColumn (.sign ',') ts
  let ts ← skip ", " ts
  let (status, ts) ← statusNumber ts
  let ts ← skip ");" ts
  let (image, _) ← values.head?
  let columns := values.map Prod.snd
  if names = columns ++ ["ROW__STATUS"] ∧ values = columns.map fun c => (image, c) then
    some ({ mode, target, columns, image, status }, ts)
  else none

/-- A search for the key of an image of the trigger's row, behind the first word. -/
def Statement.findKeyReader : Reader Statement := fun ts => do
  let ts ← skip "boolean VARIABLES.X = (SELECT true FROM " ts
  let (relation, ts) ← relationName ts
  let ts ← skip " WHERE " ts
  let (pairs, ts) ← separated (equation columnName imageColumn) (.word "AND") ts
  let ts ← skip ");" ts
  let (_, image, _) ← pairs.head?
  let key := pairs.map Prod.fst
  if pairs = key.map fun k => (k, image, k) then some (.findKey relation key image, ts) else none

/-- A statement that does not refuse the operation. -/
def Statement.reader : Reader Statement
  | .word "DECLARE" :: ts => findKeyReader ts
  | .word "INSERT" :: ts => (RowWrite.reader .insert ts).map fun (row, ts) => (write row, ts)
  | .word "UPSERT" :: ts => (RowWrite.reader .upsert ts).map fun (row, ts) => (write row, ts)
  | _ => none

/-- The condition that a dependent relation has rows, behind the opening parenthesis. -/
def Condition.rowsExistReader : Reader Condition := fun ts => do
  let ts ← skip "SELECT COUNT(*) > 0 FROM " ts
  let (relation, ts) ← relationName ts
  let ts ← skip " WHERE " ts
  let (pairs, ts) ← separated (equation columnName (columnOf "OLD")) (.word "AND") ts
  let ts ← skip ")" ts
  some (rowsExist relation pairs, ts)

/-- The condition of a branch. -/
def Condition.reader : Reader Condition
  | .word "VARIABLES" :: ts => (skip ".X" ts).map fun ts => (keyFound, ts)
  | .sign '(' :: ts => rowsExistReader ts
  | ts => (separated (columnOf "CHANGING") (.word "OR") ts).map fun (columns, ts) =>
    (changing columns, ts)

/-! ### Names that are words -/

/-- Some names, all of them words. -/
structure Words (names : List String) : Prop where
  ne_nil : names ≠ []
  isWord : ∀ name ∈ names, IsWord name

/-- The name of a relation consists of two words. -/
structure Relation.Worded (r : Relation) : Prop where
  schema : IsWord r.schema
  name : IsWord r.name

/-- The names in a query are words. -/
structure MergeQuery.Worded (q : MergeQuery) : Prop where
  columns : Words q.columns
  key : Words q.key
  base : q.base.Worded
  shadow : q.shadow.Worded

/-- The names in a statement are words, and a message has no line break. -/
def Statement.Worded : Statement → Prop
  | findKey relation key _ => relation.Worded ∧ Words key
  | write row => row.target.Worded ∧ Words row.columns
  | refuse message => '\n' ∉ message.toList

/-- The names in a condition are words. -/
def Condition.Worded : Condition → Prop
  | keyFound => True
  | changing columns => Words columns
  | rowsExist relation pairs =>
    relation.Worded ∧ pairs ≠ [] ∧ ∀ pair ∈ pairs, IsWord pair.1 ∧ IsWord pair.2

/-! ### Names, columns and equations are read back -/

section

variable {r : Relation} {owner column : String} {image : RowImage}

theorem reads_columnName (h : IsWord column) : Reads columnName column column := by
  intro rest
  rw [tokens_of_isWord h]
  rfl

theorem tokens_qualified (howner : IsWord owner) (hcolumn : IsWord column) :
    tokens (qualified owner column) = [.word owner, .sign '.', .word column] := by
  rw [qualified, tokens_between (by decide), tokens_of_isWord howner, tokens_of_isWord hcolumn]
  rfl

theorem reads_columnOf (howner : IsWord owner) (hcolumn : IsWord column) :
    Reads (columnOf owner) (qualified owner column) column := by
  intro rest
  rw [tokens_qualified howner hcolumn]
  exact if_pos rfl

theorem columnOf_eq_none {name : String} (h : name ≠ owner) (ts : List Token) :
    columnOf owner (.word name :: ts) = none := by
  unfold columnOf
  split
  · next heq =>
    obtain ⟨⟨⟩, -⟩ := List.cons.inj heq
    exact if_neg h
  · rfl

theorem reads_imageColumn (hcolumn : IsWord column) :
    Reads imageColumn (qualified image.text column) (image, column) := by
  intro rest
  cases image <;>
    rw [RowImage.text, tokens_qualified (by decide) hcolumn] <;>
    rfl

theorem exists_eq_cons_of_columnOf {ts : List Token} (h : columnOf owner ts ≠ none) :
    ∃ rest, ts = .word owner :: rest := by
  unfold columnOf at h
  split at h
  · next name column rest =>
    obtain rfl : name = owner := by_contra fun hne => h (if_neg hne)
    exact ⟨_, rfl⟩
  · exact absurd rfl h

theorem imageColumn_eq_none {name : String} (hold : name ≠ "OLD") (hnew : name ≠ "NEW")
    (ts : List Token) : imageColumn (.word name :: ts) = none := by
  rw [imageColumn, columnOf_eq_none hold, columnOf_eq_none hnew]
  rfl

theorem Relation.reads_text (h : r.Worded) : Reads relationName r.text r := by
  intro rest
  rw [text, tokens_between (by decide), tokens_of_isWord h.schema, tokens_of_isWord h.name]
  rfl

theorem RowStatus.tokens_text (s : RowStatus) : tokens s.text = [.word (toString s.code)] := by
  cases s <;> decide

theorem RowStatus.reads_text (s : RowStatus) : Reads statusNumber s.text s := by
  intro rest
  rw [s.tokens_text]
  cases s <;> rfl

theorem reads_equation {α β : Type} {left : Reader α} {right : Reader β} {a : α} {b : β}
    {leftText rightText : String} (hleft : Reads left leftText a)
    (hright : Reads right rightText b) :
    Reads (equation left right) (leftText ++ " = " ++ rightText) (a, b) := by
  intro rest
  rw [tokens_between (by decide), List.append_assoc, List.append_assoc, equation, hleft]
  simp [hright _]

end

/-! ### Lists are read back -/

section

variable {columns : List String} {rest : List Token}

theorem separated_columnName (h : Words columns) (hrest : Stops columnName (.sign ',') rest) :
    separated columnName (.sign ',') (tokens (columnList columns) ++ rest) =
      some (columns, rest) := by
  have hread := @separated_intercalate _ columnName _ rest _ ", " (fun c => c) (fun c => c) columns
    (by decide) (by decide) (fun c hc => reads_columnName (h.isWord c hc)) h.ne_nil hrest
  rwa [List.map_id'] at hread

theorem separated_columnOf {owner text : String} {separator : Token} (htext : Separator text)
    (hseparator : tokens text = [separator]) (howner : IsWord owner) (h : Words columns)
    (hrest : Stops (columnOf owner) separator rest) :
    separated (columnOf owner) separator
        (tokens (text.intercalate (columns.map (qualified owner))) ++ rest) =
      some (columns, rest) := by
  have hread := @separated_intercalate _ (columnOf owner) _ rest _ text (qualified owner)
    (fun c => c) columns htext hseparator (fun c hc => reads_columnOf howner (h.isWord c hc))
    h.ne_nil hrest
  rwa [List.map_id'] at hread

theorem separated_imageColumn (image : RowImage) (h : Words columns)
    (hrest : Stops imageColumn (.sign ',') rest) :
    separated imageColumn (.sign ',')
        (tokens (columnList (columns.map (qualified image.text))) ++ rest) =
      some (columns.map fun c => (image, c), rest) :=
  separated_intercalate (by decide) (by decide)
    (fun c hc => reads_imageColumn (h.isWord c hc)) h.ne_nil hrest

/-- Equations are read back. -/
theorem separated_equations {α β γ : Type} {left : Reader α} {right : Reader β} {a : γ → α}
    {b : γ → β} {leftText rightText : γ → String} {entries : List γ} (hne : entries ≠ [])
    (hleft : ∀ x ∈ entries, Reads left (leftText x) (a x))
    (hright : ∀ x ∈ entries, Reads right (rightText x) (b x))
    (hrest : Stops (equation left right) (.word "AND") rest) :
    separated (equation left right) (.word "AND")
        (tokens (equations (entries.map fun x => (leftText x, rightText x))) ++ rest) =
      some (entries.map fun x => (a x, b x), rest) := by
  rw [equations, List.map_map]
  exact separated_intercalate (by decide) (by decide)
    (fun x hx => reads_equation (hleft x hx) (hright x hx)) hne hrest

end

/-! ### Queries, statements and conditions are read back -/

theorem MergeQuery.tokens_text (q : MergeQuery) :
    tokens q.text =
      tokens "SELECT " ++ (tokens (columnList (q.columns.map (qualified "o"))) ++
      (tokens " FROM " ++ (tokens q.base.text ++
      (tokens " AS o LEFT OUTER JOIN " ++ (tokens q.shadow.text ++
      (tokens " AS m ON (" ++
      (tokens (equations (q.key.map fun k => (qualified "o" k, qualified "m" k))) ++
      (tokens ") WHERE m.ROW__STATUS IS NULL UNION ALL SELECT " ++ (tokens (columnList q.columns) ++
      (tokens " FROM " ++ (tokens q.shadow.text ++
      (tokens " WHERE ROW__STATUS <> " ++ tokens q.hidden.text)))))))))))) := by
  have hselect (b : String) : tokens ("SELECT " ++ b) = tokens "SELECT " ++ tokens b :=
    tokens_append_of_stop (by decide)
  have hbase : tokens ") WHERE m.ROW__STATUS IS NULL UNION ALL SELECT " =
      tokens ") WHERE " ++ (tokens (qualified "m" statusColumn) ++
        tokens " IS NULL \n UNION ALL \nSELECT ") := by
    decide
  have hshadow : tokens " WHERE ROW__STATUS <> " =
      tokens " WHERE " ++ (tokens statusColumn ++ tokens " <> ") := by
    decide
  unfold text
  simp only [hselect, hbase, hshadow, tokens_between (by decide : Separator " FROM "),
    tokens_between (by decide : Separator " AS o LEFT OUTER JOIN "),
    tokens_between (by decide : Separator " AS m ON ("),
    tokens_between (by decide : Separator ") WHERE "),
    tokens_between (by decide : Separator " IS NULL \n UNION ALL \nSELECT "),
    tokens_between (by decide : Separator " WHERE "),
    tokens_between (by decide : Separator " <> "), List.append_assoc]

/-- The query that is written is read. -/
theorem MergeQuery.read_of_worded {q : MergeQuery} (h : q.Worded) : read q.text = some q := by
  have hcolumns (rest : List Token) :
      separated (columnOf "o") (.sign ',')
          (tokens (columnList (q.columns.map (qualified "o"))) ++ (tokens " FROM " ++ rest)) =
        some (q.columns, tokens " FROM " ++ rest) :=
    separated_columnOf (by decide) (by decide) (by decide) h.columns
      (stops_append (by decide) rest)
  have hnames (rest : List Token) := separated_columnName h.columns
    (stops_append (by decide : (tokens " FROM ").head?.any (· != .sign ',') = true) rest)
  have hkey (rest : List Token) := separated_equations h.key.ne_nil
    (fun k hk => reads_columnOf (by decide : IsWord "o") (h.key.isWord k hk))
    (fun k hk => reads_columnOf (by decide : IsWord "m") (h.key.isWord k hk))
    (stops_append (by decide : (tokens ") WHERE m.ROW__STATUS IS NULL UNION ALL SELECT ").head?.any
      (· != .word "AND") = true) rest)
  have hhidden := q.hidden.reads_text []
  rw [List.append_nil] at hhidden
  have hreader : reader (tokens q.text) = some (q, []) := by
    rw [tokens_text]
    unfold reader
    refine bind_of_eq_some (skip_tokens _ _) (bind_of_eq_some (hcolumns _) ?_)
    refine bind_of_eq_some (skip_tokens _ _) (bind_of_eq_some (q.base.reads_text h.base _) ?_)
    refine bind_of_eq_some (skip_tokens _ _) (bind_of_eq_some (q.shadow.reads_text h.shadow _) ?_)
    refine bind_of_eq_some (skip_tokens _ _) (bind_of_eq_some (hkey _) ?_)
    refine bind_of_eq_some (skip_tokens _ _) (bind_of_eq_some (hnames _) ?_)
    refine bind_of_eq_some (skip_tokens _ _) (bind_of_eq_some (q.shadow.reads_text h.shadow _) ?_)
    refine bind_of_eq_some (skip_tokens _ _) (bind_of_eq_some hhidden ?_)
    simp [Function.comp_def]
  rw [read, hreader]

theorem Words.concat {columns : List String} (h : Words columns) {column : String}
    (hcolumn : IsWord column) : Words (columns ++ [column]) :=
  ⟨by simp, List.forall_mem_append.2 ⟨h.isWord, by simpa using hcolumn⟩⟩

theorem Words.exists_head?_map {β : Type} {columns : List String} (h : Words columns)
    (f : String → β) : ∃ c, (columns.map f).head? = some (f c) := by
  obtain ⟨c, hc⟩ := Option.isSome_iff_exists.1 (List.isSome_head?.2 h.ne_nil)
  exact ⟨c, by rw [List.head?_map, hc, Option.map_some]⟩

theorem RowWrite.tokens_text {w : RowWrite} (h : w.columns ≠ []) :
    tokens w.text =
      tokens w.mode.text ++ (tokens " INTO " ++ (tokens w.target.text ++ (tokens " (" ++
      (tokens (columnList (w.columns ++ ["ROW__STATUS"])) ++ (tokens ") VALUES (" ++
      (tokens (columnList (w.columns.map (qualified w.image.text))) ++ (tokens ", " ++
      (tokens w.status.text ++ tokens ");")))))))) := by
  have hnames : tokens (columnList (w.columns ++ ["ROW__STATUS"])) =
      tokens (columnList w.columns) ++ (tokens ", " ++ tokens statusColumn) := by
    rw [columnList, String.intercalate_append_of_ne_nil h (List.cons_ne_nil _ _),
      String.intercalate_singleton, tokens_between (by decide), List.append_assoc]
    rfl
  have hend (a : String) : tokens (a ++ ");") = tokens a ++ tokens ");" :=
    tokens_append_of_start (by decide)
  unfold text
  simp only [hnames, hend, tokens_between (by decide : Separator " INTO "),
    tokens_between (by decide : Separator " ("), tokens_between (by decide : Separator ", "),
    tokens_between (by decide : Separator ") VALUES ("), List.append_assoc]

theorem RowWrite.reads_text {w : RowWrite} (htarget : w.target.Worded) (h : Words w.columns) :
    Reads Statement.reader w.text (.write w) := by
  intro rest
  have hnames (rest : List Token) :=
    separated_columnName (h.concat (by decide : IsWord "ROW__STATUS"))
      (stops_append (by decide : (tokens ") VALUES (").head?.any (· != .sign ',') = true) rest)
  -- A comma follows the last column too, but behind it stands the status, which is no column.
  have hstops (rest : List Token) :
      Stops imageColumn (.sign ',') (tokens ", " ++ (tokens w.status.text ++ rest)) := by
    intro next hnext
    have hcomma : tokens ", " = [.sign ','] := by decide
    rw [hcomma, w.status.tokens_text] at hnext
    obtain rfl := (List.cons.inj hnext).2
    cases w.status <;> exact imageColumn_eq_none (by decide) (by decide) _
  have hvalues (rest : List Token) := separated_imageColumn w.image h (hstops rest)
  have hmode (ts : List Token) : Statement.reader (tokens w.mode.text ++ ts) =
      (RowWrite.reader w.mode ts).map fun (row, ts) => (.write row, ts) := by
    have hinsert : tokens "INSERT" = [.word "INSERT"] := tokens_of_isWord (by decide)
    have hupsert : tokens "UPSERT" = [.word "UPSERT"] := tokens_of_isWord (by decide)
    cases w.mode <;> simp only [WriteMode.text, hinsert, hupsert] <;> rfl
  obtain ⟨first, hhead⟩ := h.exists_head?_map fun c => (w.image, c)
  rw [tokens_text h.ne_nil]
  simp only [List.append_assoc, hmode]
  refine Option.map_eq_some_iff.2 ⟨(w, rest), ?_, rfl⟩
  unfold reader
  refine bind_of_eq_some (skip_tokens _ _) (bind_of_eq_some (w.target.reads_text htarget _) ?_)
  refine bind_of_eq_some (skip_tokens _ _) (bind_of_eq_some (hnames _) ?_)
  refine bind_of_eq_some (skip_tokens _ _) (bind_of_eq_some (hvalues _) ?_)
  refine bind_of_eq_some (skip_tokens _ _) (bind_of_eq_some (w.status.reads_text _) ?_)
  refine bind_of_eq_some (skip_tokens _ _) (bind_of_eq_some hhead ?_)
  simp [Function.comp_def]

theorem Statement.tokens_findKey (relation : Relation) (key : List String) (image : RowImage) :
    tokens (findKey relation key image).text =
      .word "DECLARE" :: (tokens "boolean VARIABLES.X = (SELECT true FROM " ++
      (tokens relation.text ++ (tokens " WHERE " ++
      (tokens (equations (key.map fun k => (k, qualified image.text k))) ++ tokens ");")))) := by
  have hstart (b : String) :
      tokens ("DECLARE boolean VARIABLES.X = (SELECT true FROM " ++ b) =
        .word "DECLARE" :: (tokens "boolean VARIABLES.X = (SELECT true FROM " ++ tokens b) :=
    tokens_append_of_eq (by decide) (by decide : _ =
      .word "DECLARE" :: tokens "boolean VARIABLES.X = (SELECT true FROM ")
  have hend (a : String) : tokens (a ++ ");") = tokens a ++ tokens ");" :=
    tokens_append_of_start (by decide)
  unfold text
  simp only [hstart, hend, tokens_between (by decide : Separator " WHERE "), List.cons_append,
    List.append_assoc]

theorem Statement.reads_findKey {relation : Relation} {key : List String} {image : RowImage}
    (hrelation : relation.Worded) (h : Words key) :
    Reads Statement.reader (findKey relation key image).text (findKey relation key image) := by
  intro rest
  have hpairs (rest : List Token) := @separated_equations _ _ _ _ columnName imageColumn _ _ _ _ _
    h.ne_nil (fun k hk => reads_columnName (h.isWord k hk))
    (fun k hk => @reads_imageColumn _ image (h.isWord k hk))
    (stops_append (by decide : (tokens ");").head?.any (· != .word "AND") = true) rest)
  obtain ⟨first, hhead⟩ := h.exists_head?_map fun k => (k, image, k)
  rw [tokens_findKey]
  simp only [List.cons_append, List.append_assoc]
  change findKeyReader _ = _
  unfold findKeyReader
  refine bind_of_eq_some (skip_tokens _ _) (bind_of_eq_some (relation.reads_text hrelation _) ?_)
  refine bind_of_eq_some (skip_tokens _ _) (bind_of_eq_some (hpairs _) ?_)
  refine bind_of_eq_some (skip_tokens _ _) (bind_of_eq_some hhead ?_)
  simp [Function.comp_def]

theorem Condition.tokens_rowsExist (relation : Relation) (pairs : List (String × String)) :
    tokens (rowsExist relation pairs).text =
      .sign '(' :: (tokens "SELECT COUNT(*) > 0 FROM " ++ (tokens relation.text ++
      (tokens " WHERE " ++
      (tokens (equations (pairs.map fun pair => (pair.1, qualified "OLD" pair.2))) ++
        tokens ")")))) := by
  have hstart (b : String) : tokens ("(SELECT COUNT(*) > 0 FROM " ++ b) =
      .sign '(' :: (tokens "SELECT COUNT(*) > 0 FROM " ++ tokens b) :=
    tokens_append_of_eq (by decide) (by decide : _ =
      .sign '(' :: tokens "SELECT COUNT(*) > 0 FROM ")
  have hend (a : String) : tokens (a ++ ")") = tokens a ++ tokens ")" :=
    tokens_append_of_start (by decide)
  unfold text
  simp only [hstart, hend, tokens_between (by decide : Separator " WHERE "), List.cons_append,
    List.append_assoc]
  rfl

theorem Condition.reads_rowsExist {relation : Relation} {pairs : List (String × String)}
    (h : (rowsExist relation pairs).Worded) :
    Reads reader (rowsExist relation pairs).text (rowsExist relation pairs) := by
  intro rest
  obtain ⟨hrelation, hne, hwords⟩ := h
  have hpairs (rest : List Token) := @separated_equations _ _ _ _ columnName (columnOf "OLD") _ _ _
    _ _ hne (fun pair hpair => reads_columnName (hwords pair hpair).1)
    (fun pair hpair => reads_columnOf (by decide : IsWord "OLD") (hwords pair hpair).2)
    (stops_append (by decide : (tokens ")").head?.any (· != .word "AND") = true) rest)
  rw [tokens_rowsExist]
  simp only [List.cons_append, List.append_assoc]
  change rowsExistReader _ = _
  unfold rowsExistReader
  refine bind_of_eq_some (skip_tokens _ _) (bind_of_eq_some (relation.reads_text hrelation _) ?_)
  refine bind_of_eq_some (skip_tokens _ _) (bind_of_eq_some (hpairs _) ?_)
  refine bind_of_eq_some (skip_tokens _ _) ?_
  simp

/-- A condition is read back, up to a text that does not go on with an alternative. -/
theorem Condition.reader_text {condition : Condition} (h : condition.Worded) {rest : List Token}
    (hrest : Stops (columnOf "CHANGING") (.word "OR") rest) :
    reader (tokens condition.text ++ rest) = some (condition, rest) := by
  cases condition with
  | keyFound =>
    have htokens : tokens "VARIABLES.X" = .word "VARIABLES" :: tokens ".X" := by decide
    change reader (tokens "VARIABLES.X" ++ rest) = _
    rw [htokens]
    change (skip ".X" (tokens ".X" ++ rest)).map _ = _
    rw [skip_tokens]
    rfl
  | changing columns =>
    have hread := separated_columnOf (by decide) (by decide : tokens " OR " = _) (by decide) h hrest
    change reader (tokens (String.intercalate " OR " (columns.map (qualified "CHANGING"))) ++
      rest) = _
    obtain ⟨ts, hts⟩ := exists_eq_cons_of_columnOf (ne_none_of_separated hread)
    rw [hts] at hread ⊢
    change (separated (columnOf "CHANGING") (.word "OR") _).map _ = _
    rw [hread]
    rfl
  | rowsExist relation pairs => exact reads_rowsExist h rest

end Overlay
