import Overlay.Proofs.Sequence
import Overlay.Proofs.SchemaText.Document
import Overlay.Proofs.SchemaText.LineReading
import Overlay.SchemaText.Reader

/-!
# Reading documents

Reading a text line by line succeeds exactly if its lines form an accepted document, and gives the
schema that the document declares (`declared_eq_ok_iff`). The lines of a block change the open table
in the way that `OpenTable.extend` says; the state of a run is then described for the two places at
which a line can stand, between tables and inside one.
-/

namespace Overlay.SchemaText

open Overlay.Text

/-! ### Open tables -/

namespace OpenTable

/-- The open table after the given lines, if all of them can be taken in. -/
def extend (t : OpenTable) (body : List BodyLine) : OpenTable :=
  { t with
    columns := t.columns ++ body.filterMap BodyLine.column?
    foreignKeys := t.foreignKeys ++ body.flatMap BodyLine.references
    inlineKey := t.inlineKey ++ body.flatMap BodyLine.inlineKey
    clauseKey := (t.clauseKey.toList ++ body.filterMap BodyLine.clauseKey?).head? }

/-- Whether the given lines can be taken in. -/
structure Extendable (t : OpenTable) (body : List BodyLine) : Prop where
  known_types : ∀ w ∈ body.filterMap BodyLine.typeWord?, (ColumnType.ofWord? w).isSome
  one_clause : (t.clauseKey.toList ++ body.filterMap BodyLine.clauseKey?).length ≤ 1

theorem foldl_constrain (t : OpenTable) (column : Column) (constraints : List Constraint) :
    constraints.foldl (fun (t, column) c => t.constrain column c) (t, column) =
      ({ t with
          inlineKey := t.inlineKey ++ (constraints.filter (· = .primaryKey)).map fun _ => column.name
          foreignKeys := t.foreignKeys ++ constraints.filterMap (Constraint.reference? column.name) },
        { column with
          nullable := (constraints.filterMap Constraint.nullability?).getLastD column.nullable }) := by
  induction constraints generalizing t column with
  | nil => simp
  | cons c constraints ih =>
    rw [List.foldl_cons]
    cases c <;> refine (ih _ _).trans ?_ <;>
      simp only [List.filterMap_cons, Constraint.nullability?, Constraint.reference?,
        List.getLastD_cons, List.filter_cons, List.map_cons, List.append_assoc, decide_true,
        decide_false, reduceCtorEq, if_true, if_false, Bool.false_eq_true, List.singleton_append]

theorem addColumn_eq (t : OpenTable) (column : Column) (constraints : List Constraint) :
    t.addColumn column constraints =
      { t with
        columns := t.columns ++
          [{ column with
              nullable :=
                (constraints.filterMap Constraint.nullability?).getLastD column.nullable }]
        inlineKey := t.inlineKey ++ (constraints.filter (· = .primaryKey)).map fun _ => column.name
        foreignKeys :=
          t.foreignKeys ++ constraints.filterMap (Constraint.reference? column.name) } := by
  rw [addColumn, foldl_constrain]

theorem extendable_iff {t : OpenTable} {body : List BodyLine} :
    t.Extendable body ↔
      (∀ w ∈ body.filterMap BodyLine.typeWord?, (ColumnType.ofWord? w).isSome) ∧
        (t.clauseKey.toList ++ body.filterMap BodyLine.clauseKey?).length ≤ 1 :=
  ⟨fun h => ⟨h.1, h.2⟩, fun h => ⟨h.1, h.2⟩⟩

theorem addLine_eq_ok_iff {t t' : OpenTable} {b : BodyLine} :
    t.addLine b = .ok t' ↔ t.Extendable [b] ∧ t' = t.extend [b] := by
  rw [extendable_iff, @eq_comm _ t']
  cases b with
  | primaryKey columns =>
    cases h : t.clauseKey <;>
      simp [addLine, extend, h, List.filterMap_cons, BodyLine.typeWord?, BodyLine.column?,
        BodyLine.references, BodyLine.inlineKey, BodyLine.clauseKey?]
  | foreignKey columns target targetColumns =>
    cases h : t.clauseKey <;>
      simp [addLine, extend, h, List.filterMap_cons, BodyLine.typeWord?, BodyLine.column?,
        BodyLine.references, BodyLine.inlineKey, BodyLine.clauseKey?]
  | column name typeWord constraints =>
    cases hw : ColumnType.ofWord? typeWord with
    | none => simp [addLine, hw, BodyLine.typeWord?]
    | some type =>
      cases h : t.clauseKey <;>
        simp [addLine, extend, addColumn_eq, h, hw, isNullable, List.filterMap_cons,
          BodyLine.typeWord?, BodyLine.column?, BodyLine.references, BodyLine.inlineKey,
          BodyLine.clauseKey?]

theorem extend_nil (t : OpenTable) : t.extend [] = t := by
  obtain ⟨line, name, columns, foreignKeys, inlineKey, clauseKey⟩ := t
  cases clauseKey <;> simp [extend]

theorem extend_extend (t : OpenTable) (body body' : List BodyLine) :
    (t.extend body).extend body' = t.extend (body ++ body') := by
  simp only [extend, List.filterMap_append, List.flatMap_append, List.append_assoc,
    OpenTable.mk.injEq, true_and]
  cases t.clauseKey <;> cases body.filterMap BodyLine.clauseKey? <;> simp

theorem toList_head? {α : Type} {l : List α} (h : l.length ≤ 1) : l.head?.toList = l := by
  match l, h with
  | [], _ => rfl
  | [a], _ => rfl

theorem extendable_append {t : OpenTable} {body body' : List BodyLine} :
    t.Extendable (body ++ body') ↔ t.Extendable body ∧ (t.extend body).Extendable body' := by
  simp only [extendable_iff, extend, List.filterMap_append, List.forall_mem_append]
  constructor
  · rintro ⟨⟨htypes, htypes'⟩, hlen⟩
    have hle : (t.clauseKey.toList ++ body.filterMap BodyLine.clauseKey?).length ≤ 1 := by
      simp only [List.length_append] at hlen ⊢
      omega
    rw [toList_head? hle, List.append_assoc]
    exact ⟨⟨htypes, hle⟩, htypes', hlen⟩
  · rintro ⟨⟨htypes, hle⟩, htypes', hlen⟩
    rw [toList_head? hle, List.append_assoc] at hlen
    exact ⟨⟨htypes, htypes'⟩, hlen⟩

/-- Taking in lines succeeds if they are extendable, and gives the extended table. -/
theorem foldlM_addLine_eq_ok_iff {t t' : OpenTable} {body : List BodyLine} :
    body.foldlM addLine t = .ok t' ↔ t.Extendable body ∧ t' = t.extend body := by
  induction body generalizing t with
  | nil =>
    have hle : t.clauseKey.toList.length ≤ 1 := by cases t.clauseKey <;> simp
    simp [extend_nil, extendable_iff, hle, pure, Except.pure, @eq_comm _ t']
  | cons b body ih =>
    simp only [List.foldlM_cons, bind_eq_ok_iff, addLine_eq_ok_iff, ih]
    rw [show b :: body = [b] ++ body from rfl, extendable_append, ← extend_extend]
    constructor
    · rintro ⟨_, ⟨hb, rfl⟩, hbody, rfl⟩
      exact ⟨⟨hb, hbody⟩, rfl⟩
    · rintro ⟨⟨hb, hbody⟩, rfl⟩
      exact ⟨_, ⟨hb, rfl⟩, hbody, rfl⟩

theorem close_eq_ok_iff {t : OpenTable} {table : Table} :
    t.close = .ok table ↔
      (t.clauseKey = none ∨ t.inlineKey = []) ∧
        table =
          { name := t.name
            columns := t.columns
            primaryKey := t.clauseKey.or (if t.inlineKey = [] then none else some t.inlineKey)
            foreignKeys := t.foreignKeys } := by
  rw [@eq_comm _ table]
  unfold close
  cases t.inlineKey <;> cases t.clauseKey <;> simp

/-- The lines of a block are taken in and the block is closed if it is accepted. -/
theorem read_block_iff {line : Nat} {b : Block} {table : Table} :
    (∃ t, b.body.foldlM addLine (start line b.name) = .ok t ∧ t.close = .ok table) ↔
      b.Accepted ∧ table = b.table := by
  have hkeys : (b.clauseKeys.head? = none ∨ b.inlineKey = []) ↔
      (b.clauseKeys = [] ∨ b.inlineKey = []) := by
    rw [List.head?_eq_none_iff]
  simp only [foldlM_addLine_eq_ok_iff, close_eq_ok_iff, extendable_iff]
  constructor
  · rintro ⟨_, ⟨⟨htypes, hclause⟩, rfl⟩, hkey, rfl⟩
    exact ⟨⟨htypes, hclause, hkeys.1 hkey⟩, rfl⟩
  · rintro ⟨⟨htypes, hclause, hkey⟩, rfl⟩
    exact ⟨_, ⟨⟨htypes, hclause⟩, rfl⟩, hkeys.2 hkey, rfl⟩

end OpenTable

/-! ### Single lines -/

section

variable {word cs rest line : List Char} {w : Char} {name : String}

theorem exists_cons_of_tableHead? (h : tableHead? line = some name) :
    ∃ c tail, line = c :: tail ∧ lowerLetter c = 't' := by
  rw [tableHead?, whole_eq_some_iff] at h
  simp only [Option.bind_eq_bind, Option.bind_eq_some_iff] at h
  obtain ⟨_, hafter, -⟩ := h
  obtain ⟨c, tail, hline, hletter⟩ := Grammar.exists_cons_of_after (by decide) (by decide) hafter
  have hc : some 't' = some (lowerLetter c) := hletter
  exact ⟨c, tail, hline, (Option.some.inj hc).symm⟩

theorem exists_cons_of_schemaHead? (h : schemaHead? line = some name) :
    ∃ c tail, line = c :: tail ∧ lowerLetter c = 's' := by
  rw [schemaHead?, whole_eq_some_iff] at h
  simp only [Option.bind_eq_bind, Option.bind_eq_some_iff] at h
  obtain ⟨_, hafter, -⟩ := h
  obtain ⟨c, tail, hline, hletter⟩ := Grammar.exists_cons_of_after (by decide) (by decide) hafter
  have hc : some 's' = some (lowerLetter c) := hletter
  exact ⟨c, tail, hline, (Option.some.inj hc).symm⟩

/-- No line is the head of a table and of a schema. -/
theorem schemaHead?_eq_none (h : tableHead? line = some name) : schemaHead? line = none := by
  obtain ⟨c, tail, rfl, hc⟩ := exists_cons_of_tableHead? h
  rw [Option.eq_none_iff_forall_ne_some]
  intro other hother
  obtain ⟨_, _, heq, hd⟩ := exists_cons_of_schemaHead? hother
  obtain ⟨rfl, -⟩ := List.cons.inj heq
  rw [hc] at hd
  exact absurd hd (by decide)

theorem bodyLine?_brace : bodyLine? ['}'] = none := by
  decide +kernel

end

namespace Draft

variable {n : Nat} {line : List Char} {name : String} {tables : List Table} {d d' : Draft}
  {t : OpenTable}

theorem step_empty_eq_ok_iff :
    empty.step (n, line) = .ok d ↔
      ∃ name, schemaHead? line = some name ∧ d = { name, tables := [], current := none } := by
  simp only [step, empty, topLine]
  cases hs : schemaHead? line with
  | some name => simp [eq_comm]
  | none => cases tableHead? line <;> simp

theorem step_between_eq_ok_iff :
    (Draft.mk (some name) tables none).step (n, line) = .ok d ↔
      ∃ table, tableHead? line = some table ∧ d = ⟨some name, tables, some (.start n table)⟩ := by
  simp only [step, topLine]
  cases ht : tableHead? line with
  | some table => simp [schemaHead?_eq_none ht, eq_comm]
  | none => cases schemaHead? line <;> simp

theorem step_inside_eq_ok_iff (hline : line ≠ ['}']) :
    (Draft.mk (some name) tables (some t)).step (n, line) = .ok d ↔
      ∃ b t', bodyLine? line = some b ∧ t.addLine b = .ok t' ∧ d = ⟨some name, tables, some t'⟩ := by
  simp only [step, if_neg hline, innerLine]
  cases hb : bodyLine? line with
  | none => simp
  | some b => cases h : t.addLine b <;> simp [h, eq_comm]

theorem step_close_eq_ok_iff :
    (Draft.mk (some name) tables (some t)).step (n, ['}']) = .ok d ↔
      ∃ table, t.close = .ok table ∧ (∀ other ∈ tables, sameName other.name table.name = false) ∧
        d = ⟨some name, tables ++ [table], none⟩ := by
  simp only [step, if_true, closeTable, bind_eq_ok_iff]
  refine exists_congr fun table => and_congr_right fun _ => ?_
  by_cases h : tables.any fun other => sameName other.name table.name
  · rw [if_pos h]
    simp only [reduceCtorEq, false_iff, not_and]
    intro hdistinct
    obtain ⟨other, hother, hsame⟩ := List.any_eq_true.1 h
    rw [hdistinct other hother] at hsame
    cases hsame
  · rw [if_neg h, Except.ok.injEq, eq_comm, iff_and_self]
    rintro -
    simpa using h

end Draft

/-! ### Runs -/

namespace Draft

/-- The schema that is read from lines after what has been read so far. -/
def run (d : Draft) (numbered : List (Nat × List Char)) : Except Error Schema := do
  let d ← numbered.foldlM step d
  d.finish

theorem run_nil (d : Draft) : d.run [] = d.finish := rfl

theorem run_cons (d : Draft) (l : Nat × List Char) (numbered : List (Nat × List Char)) :
    d.run (l :: numbered) = d.step l >>= fun d => d.run numbered := by
  rw [run, List.foldlM_cons, bind_assoc]
  rfl

/-- The schemas that lines between tables make of a name and the tables read so far. -/
def Completes (name : String) (tables : List Table) (ls : List (List Char)) (s : Schema) : Prop :=
  ∃ blocks, BlockLines .read ls blocks ∧ (∀ b ∈ blocks, b.Accepted) ∧
    (tables ++ blocks.map Block.table).Pairwise (fun a b => sameName a.name b.name = false) ∧
    s = { name, tables := tables ++ blocks.map Block.table }

/-- The schemas that lines inside the table `t` make of a name and the tables read so far. -/
def CompletesInside (name : String) (tables : List Table) (t : OpenTable) (ls : List (List Char))
    (s : Schema) : Prop :=
  ∃ inner rest body table, ls = inner ++ ['}'] :: rest ∧
    List.Forall₂ (fun l b => bodyLine? l = some b) inner body ∧
    (∃ t', body.foldlM OpenTable.addLine t = .ok t' ∧ t'.close = .ok table) ∧
    Completes name (tables ++ [table]) rest s

variable {n : Nat} {line : List Char} {ls : List (List Char)} {name : String}
  {tables : List Table} {t : OpenTable} {s : Schema}

theorem completes_nil (h : tables.Pairwise fun a b => sameName a.name b.name = false) :
    Completes name tables [] s ↔ s = { name, tables } := by
  constructor
  · rintro ⟨_, hls, -, -, rfl⟩
    cases hls
    simp
  · rintro rfl
    exact ⟨[], .nil, by simp, by simpa using h, by simp⟩

theorem completes_cons :
    Completes name tables (line :: ls) s ↔
      ∃ table, tableHead? line = some table ∧
        CompletesInside name tables (.start n table) ls s := by
  constructor
  · rintro ⟨_, hls, haccepted, hdistinct, rfl⟩
    obtain _ | @⟨_, inner, rest, table, body, blocks, hhead, hinner, hrest⟩ := hls
    obtain ⟨hb, haccepted⟩ := List.forall_mem_cons.1 haccepted
    refine ⟨table, hhead, inner, rest, body, _, rfl, hinner,
      OpenTable.read_block_iff.2 ⟨hb, rfl⟩, blocks, hrest, haccepted, ?_, ?_⟩
    · simpa using hdistinct
    · simp
  · rintro ⟨name, hhead, inner, rest, body, table, rfl, hinner, hbody, blocks, hrest, haccepted,
      hdistinct, rfl⟩
    obtain ⟨hb, rfl⟩ := (OpenTable.read_block_iff (b := { name, body })).1 hbody
    refine ⟨_, .cons hhead hinner hrest, List.forall_mem_cons.2 ⟨hb, haccepted⟩, ?_, ?_⟩
    · simpa using hdistinct
    · simp

theorem completesInside_nil : ¬CompletesInside name tables t [] s := by
  rintro ⟨inner, rest, body, table, h, -⟩
  simp at h

theorem completesInside_brace :
    CompletesInside name tables t (['}'] :: ls) s ↔
      ∃ table, t.close = .ok table ∧ Completes name (tables ++ [table]) ls s := by
  constructor
  · rintro ⟨inner, rest, body, table, h, hinner, hbody, hrest⟩
    obtain _ | ⟨hl, hinner⟩ := hinner
    · obtain ⟨_, rfl⟩ := List.cons.inj h
      obtain ⟨_, ⟨⟩, hclose⟩ := hbody
      exact ⟨table, hclose, hrest⟩
    · obtain ⟨rfl, -⟩ := List.cons.inj h
      rw [bodyLine?_brace] at hl
      cases hl
  · rintro ⟨table, hclose, hrest⟩
    exact ⟨[], ls, [], table, rfl, .nil, ⟨t, rfl, hclose⟩, hrest⟩

theorem completesInside_cons (hline : line ≠ ['}']) :
    CompletesInside name tables t (line :: ls) s ↔
      ∃ b t', bodyLine? line = some b ∧ t.addLine b = .ok t' ∧
        CompletesInside name tables t' ls s := by
  constructor
  · rintro ⟨inner, rest, body, table, h, hinner, ⟨t'', hbody, hclose⟩, hrest⟩
    obtain _ | @⟨_, b, inner, body, hl, hinner⟩ := hinner
    · exact absurd (List.cons.inj h).1 hline
    · obtain ⟨rfl, rfl⟩ := List.cons.inj h
      rw [List.foldlM_cons, bind_eq_ok_iff] at hbody
      obtain ⟨t', hb, hbody⟩ := hbody
      exact ⟨b, t', hl, hb, inner, rest, body, table, rfl, hinner, ⟨t'', hbody, hclose⟩, hrest⟩
  · rintro ⟨b, t', hl, hb, inner, rest, body, table, rfl, hinner, ⟨t'', hbody, hclose⟩, hrest⟩
    refine ⟨line :: inner, rest, b :: body, table, rfl, .cons hl hinner, ⟨t'', ?_, hclose⟩, hrest⟩
    rw [List.foldlM_cons, hb, ok_bind, hbody]

theorem run_between_cons_eq_ok_iff {numbered : List (Nat × List Char)} :
    (Draft.mk (some name) tables none).run ((n, line) :: numbered) = .ok s ↔
      ∃ table, tableHead? line = some table ∧
        (Draft.mk (some name) tables (some (.start n table))).run numbered = .ok s := by
  rw [run_cons, bind_eq_ok_iff]
  simp only [step_between_eq_ok_iff]
  constructor
  · rintro ⟨_, ⟨table, hhead, rfl⟩, hrun⟩
    exact ⟨table, hhead, hrun⟩
  · rintro ⟨table, hhead, hrun⟩
    exact ⟨_, ⟨table, hhead, rfl⟩, hrun⟩

theorem run_inside_brace_eq_ok_iff {numbered : List (Nat × List Char)} :
    (Draft.mk (some name) tables (some t)).run ((n, ['}']) :: numbered) = .ok s ↔
      ∃ table, t.close = .ok table ∧ (∀ other ∈ tables, sameName other.name table.name = false) ∧
        (Draft.mk (some name) (tables ++ [table]) none).run numbered = .ok s := by
  rw [run_cons, bind_eq_ok_iff]
  simp only [step_close_eq_ok_iff]
  constructor
  · rintro ⟨_, ⟨table, hclose, hother, rfl⟩, hrun⟩
    exact ⟨table, hclose, hother, hrun⟩
  · rintro ⟨table, hclose, hother, hrun⟩
    exact ⟨_, ⟨table, hclose, hother, rfl⟩, hrun⟩

theorem run_inside_cons_eq_ok_iff {numbered : List (Nat × List Char)} (hline : line ≠ ['}']) :
    (Draft.mk (some name) tables (some t)).run ((n, line) :: numbered) = .ok s ↔
      ∃ b t', bodyLine? line = some b ∧ t.addLine b = .ok t' ∧
        (Draft.mk (some name) tables (some t')).run numbered = .ok s := by
  rw [run_cons, bind_eq_ok_iff]
  simp only [step_inside_eq_ok_iff hline]
  constructor
  · rintro ⟨_, ⟨b, t', hb, ht', rfl⟩, hrun⟩
    exact ⟨b, t', hb, ht', hrun⟩
  · rintro ⟨b, t', hb, ht', hrun⟩
    exact ⟨_, ⟨b, t', hb, ht', rfl⟩, hrun⟩

theorem pairwise_append_singleton_iff {table : Table}
    (h : tables.Pairwise fun a b => sameName a.name b.name = false) :
    (tables ++ [table]).Pairwise (fun a b => sameName a.name b.name = false) ↔
      ∀ other ∈ tables, sameName other.name table.name = false := by
  simp [List.pairwise_append, h]

theorem Completes.distinct (h : Completes name tables ls s) :
    tables.Pairwise fun a b => sameName a.name b.name = false := by
  obtain ⟨_, -, -, hdistinct, -⟩ := h
  exact (List.pairwise_append.1 hdistinct).1

/-- What a run gives that starts between two tables, and what one gives that starts inside a
table. -/
theorem run_eq_ok_iff (numbered : List (Nat × List Char)) :
    (∀ tables : List Table, tables.Pairwise (fun a b => sameName a.name b.name = false) →
      ((Draft.mk (some name) tables none).run numbered = .ok s ↔
        Completes name tables (numbered.map Prod.snd) s)) ∧
    ∀ (tables : List Table) (t : OpenTable),
      tables.Pairwise (fun a b => sameName a.name b.name = false) →
      ((Draft.mk (some name) tables (some t)).run numbered = .ok s ↔
        CompletesInside name tables t (numbered.map Prod.snd) s) := by
  -- Both places at once: a head leads from between tables into one, a brace leads back.
  induction numbered with
  | nil =>
    refine ⟨fun tables h => ?_, fun tables t h => ?_⟩
    · rw [List.map_nil, completes_nil h, run_nil]
      simp [finish, eq_comm]
    · simp [run_nil, finish, completesInside_nil]
  | cons l numbered ih =>
    obtain ⟨n, line⟩ := l
    obtain ⟨ihbetween, ihinside⟩ := ih
    refine ⟨fun tables h => ?_, fun tables t h => ?_⟩
    · rw [run_between_cons_eq_ok_iff, List.map_cons, completes_cons]
      exact exists_congr fun table => and_congr_right fun _ => ihinside tables _ h
    · rw [List.map_cons]
      by_cases hline : line = ['}']
      · subst hline
        rw [run_inside_brace_eq_ok_iff, completesInside_brace]
        refine exists_congr fun table => and_congr_right fun _ => ?_
        constructor
        · rintro ⟨hother, hrun⟩
          exact (ihbetween _ ((pairwise_append_singleton_iff h).2 hother)).1 hrun
        · intro hrest
          have hdistinct := hrest.distinct
          exact ⟨(pairwise_append_singleton_iff h).1 hdistinct, (ihbetween _ hdistinct).2 hrest⟩
      · rw [run_inside_cons_eq_ok_iff hline, completesInside_cons hline]
        refine exists_congr fun b => exists_congr fun t' => ?_
        exact and_congr_right fun _ => and_congr_right fun _ => ihinside tables t' h

end Draft

/-! ### Whole texts -/

theorem map_snd_contentLines (text : List Char) :
    (contentLines text).map Prod.snd = contents text := by
  have h (ls : List (List Char)) (n : Nat) :
      ((ls.zipIdx n).filterMap fun pair =>
        if pair.1.isEmpty then none else some (pair.2, pair.1)).map Prod.snd =
        ls.filter fun line => !line.isEmpty := by
    induction ls generalizing n with
    | nil => rfl
    | cons l ls ih =>
      rw [List.zipIdx_cons, List.filterMap_cons]
      cases l with
      | nil => exact ih (n + 1)
      | cons c l => exact congrArg ((c :: l) :: ·) (ih (n + 1))
  exact h _ 1

/-- A text declares a schema if its lines form an accepted document, and then the schema of that
document. -/
theorem declared_eq_ok_iff {text : List Char} {s : Schema} :
    declared text = .ok s ↔
      ∃ d : Document, DocumentLines .read (contents text) d ∧ d.Accepted ∧ s = d.schema := by
  rw [← map_snd_contentLines]
  change Draft.empty.run (contentLines text) = .ok s ↔ _
  cases contentLines text with
  | nil =>
    rw [Draft.run_nil]
    simp only [Draft.finish, Draft.empty, reduceCtorEq, false_iff, not_exists, not_and,
      List.map_nil]
    rintro d ⟨⟩
  | cons l numbered =>
    obtain ⟨n, line⟩ := l
    rw [Draft.run_cons, bind_eq_ok_iff, List.map_cons]
    simp only [Draft.step_empty_eq_ok_iff]
    constructor
    · rintro ⟨_, ⟨name, hhead, rfl⟩, hrun⟩
      obtain ⟨blocks, hblocks, haccepted, hdistinct, rfl⟩ :=
        ((Draft.run_eq_ok_iff numbered).1 [] .nil).1 hrun
      exact ⟨{ name, blocks }, .document hhead hblocks,
        ⟨haccepted, List.pairwise_map.1 hdistinct⟩, rfl⟩
    · rintro ⟨_, @⟨_, _, name, blocks, hhead, hblocks⟩, haccepted, rfl⟩
      exact ⟨_, ⟨name, hhead, rfl⟩, ((Draft.run_eq_ok_iff numbered).1 [] .nil).2
        ⟨blocks, hblocks, haccepted.blocks, List.pairwise_map.2 haccepted.distinct, rfl⟩⟩

/-- Lines without KELVIN SIGN are read as the grammar says. -/
theorem documentLines_read_iff {ls : List (List Char)} {d : Document}
    (h : ∀ l ∈ ls, Grammar.kelvinSign ∉ l) :
    DocumentLines .read ls d ↔ DocumentLines .grammar ls d := by
  constructor
  · exact fun hd => hd.imp (fun _ _ _ => Grammar.schemaHead?_eq_some_iff.1)
      (fun _ _ _ => Grammar.tableHead?_eq_some_iff.1)
      fun l hl _ => (Grammar.bodyLine?_eq_some_iff (h l hl)).1
  · exact fun hd => hd.imp (fun _ _ _ => Grammar.schemaHead?_eq_some_iff.2)
      (fun _ _ _ => Grammar.tableHead?_eq_some_iff.2)
      fun l hl _ => (Grammar.bodyLine?_eq_some_iff (h l hl)).2

end Overlay.SchemaText
