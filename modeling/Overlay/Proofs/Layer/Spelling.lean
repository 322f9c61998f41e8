import Mathlib.Logic.Relation
import Overlay.Proofs.Layer.Nullability
import Overlay.Proofs.SchemaText.Spelling

/-!
# Layers and the spelling of keys and references

A text in which a primary key is given by a line of its own instead of marks on its columns, or in
which a reference lists the key columns of its target instead of leaving them out, is accepted if
the text was accepted before, and the same texts are generated from it
(`Schema.sameTexts_of_respelling`).
-/

namespace Overlay

open SchemaText Text

/-! ### What rewritten lines declare -/

namespace SchemaText

namespace BodyLine

section

variable {b b' : BodyLine} {target : String} {names key : List String} {s : Schema}

theorem typeWord?_unmarked (b : BodyLine) : b.unmarked.typeWord? = b.typeWord? := by
  cases b <;> rfl

theorem clauseKey?_unmarked (b : BodyLine) : b.unmarked.clauseKey? = b.clauseKey? := by
  cases b <;> rfl

theorem inlineKey_unmarked (b : BodyLine) : b.unmarked.inlineKey = [] := by
  cases b with
  | column name typeWord constraints => simp [unmarked, inlineKey]
  | primaryKey columns => rfl
  | foreignKey columns target targetColumns => rfl

theorem references_unmarked (b : BodyLine) : b.unmarked.references = b.references := by
  cases b with
  | column name typeWord constraints =>
    simp only [unmarked, references, List.filterMap_filter]
    refine List.filterMap_congr fun c _ => ?_
    cases c <;> simp [Constraint.reference?]
  | primaryKey columns => rfl
  | foreignKey columns target targetColumns => rfl

/-- A mark changes a column in nothing but its nullability, and then the key names the column. -/
theorem shadow_column?_unmarked (hkey : ∀ name ∈ b.inlineKey, name ∈ key) :
    b.unmarked.column?.map (Column.shadow key) = b.column?.map (Column.shadow key) := by
  by_cases hmarks : b.inlineKey = []
  · rw [unmarked_of_inlineKey_eq_nil hmarks]
  · cases b with
    | column name typeWord constraints =>
      obtain ⟨name', hmark⟩ := List.exists_mem_of_ne_nil _ hmarks
      obtain ⟨c, -, rfl⟩ := List.mem_map.1 hmark
      have hnamed : keyNames key name = true :=
        keyNames_eq_true_iff.2 ⟨name, hkey name hmark, sameName_refl name⟩
      rw [unmarked, column?, column?, Option.map_map, Option.map_map]
      congr 1
      funext type
      simp [Column.shadow, hnamed]
    | primaryKey columns => rfl
    | foreignKey columns target targetColumns => rfl

theorem ListAdded.same (h : b.ListAdded target names b') :
    b'.typeWord? = b.typeWord? ∧ b'.column? = b.column? ∧ b'.inlineKey = b.inlineKey ∧
      b'.clauseKey? = b.clauseKey? := by
  cases h with
  | column =>
    simp [typeWord?, column?, inlineKey, clauseKey?, isNullable, Constraint.nullability?,
      List.filterMap_cons]
  | foreignKey => exact ⟨rfl, rfl, rfl, rfl⟩

end

end BodyLine

/-! ### What references mean -/

end SchemaText

/-- The columns, the target and the target columns that a reference means. -/
def ForeignKey.meaning (s : Schema) (fk : ForeignKey) :
    List String × String × Option (List String) :=
  (fk.columns, fk.target, s.targetColumns? fk)

section

variable {s : Schema} {fks fks' : List ForeignKey}

theorem map_resolved_congr (h : fks'.map (ForeignKey.meaning s) = fks.map (ForeignKey.meaning s)) :
    fks'.map (ForeignKey.resolved s) = fks.map (ForeignKey.resolved s) := by
  let ofMeaning (meaning : List String × String × Option (List String)) : ForeignKey :=
    { columns := meaning.1, target := meaning.2.1, targetColumns := meaning.2.2.getD [] }
  have hresolved : ForeignKey.resolved s = ofMeaning ∘ ForeignKey.meaning s := rfl
  rw [hresolved, ← List.map_map, h, List.map_map]

theorem forall_isSome_targetColumns?_congr
    (h : fks'.map (ForeignKey.meaning s) = fks.map (ForeignKey.meaning s))
    (hsome : ∀ fk ∈ fks, (s.targetColumns? fk).isSome) :
    ∀ fk ∈ fks', (s.targetColumns? fk).isSome := by
  intro fk' hfk'
  have hmem : fk'.meaning s ∈ fks.map (ForeignKey.meaning s) := h ▸ List.mem_map_of_mem hfk'
  obtain ⟨fk, hfk, heq⟩ := List.mem_map.1 hmem
  have htarget : s.targetColumns? fk = s.targetColumns? fk' :=
    congrArg (fun meaning => meaning.2.2) heq
  rw [← htarget]
  exact hsome fk hfk

end

namespace SchemaText

theorem BodyLine.ListAdded.meaning_references {b b' : BodyLine} {target : String}
    {names : List String} {s : Schema} (h : b.ListAdded target names b')
    (hkey : (s.table? target).bind Table.primaryKey = some names) :
    b'.references.map (ForeignKey.meaning s) = b.references.map (ForeignKey.meaning s) := by
  have hmeaning (columns : List String) :
      ForeignKey.meaning s { columns, target, targetColumns := names } =
        ForeignKey.meaning s { columns, target, targetColumns := [] } := by
    simp only [ForeignKey.meaning, Schema.targetColumns?, hkey, if_true, ite_self]
  cases h with
  | column => simp [references, Constraint.reference?, hmeaning]
  | foreignKey => simp [references, hmeaning]

/-! ### Rewritten blocks -/

/-- The block `b'` declares the table that `b` declares, up to which columns of the key are said to
be nullable and which references list their columns. -/
structure Block.Respelled (s : Schema) (b b' : Block) : Prop where
  name : b'.name = b.name
  primaryKey : b'.primaryKey = b.primaryKey
  accepted : b'.Accepted
  columns : b'.columns.map (Column.shadow (b.primaryKey.getD [])) =
    b.columns.map (Column.shadow (b.primaryKey.getD []))
  references : b'.references.map (ForeignKey.meaning s) = b.references.map (ForeignKey.meaning s)

section

variable {s : Schema} {b b' : Block} {l l' : BodyLine} {front back : List BodyLine}
  {target : String} {names : List String}

theorem Block.primaryKey_of_marks (haccepted : b.Accepted) (hmarks : b.inlineKey ≠ []) :
    b.clauseKeys = [] ∧ b.primaryKey = some b.inlineKey := by
  have hclauses : b.clauseKeys = [] := haccepted.one_key.resolve_right hmarks
  refine ⟨hclauses, ?_⟩
  rw [primaryKey, hclauses, if_neg hmarks]
  rfl

/-- The primary key that the marks of a table give can be given by a line. -/
theorem Block.respelled_of_keyMoved (s : Schema) (haccepted : b.Accepted)
    (hmarks : b.inlineKey ≠ []) (hbody : b.body.map BodyLine.unmarked = front ++ back)
    (hname : b'.name = b.name) (hbody' : b'.body = front ++ .primaryKey b.inlineKey :: back) :
    b.Respelled s b' := by
  obtain ⟨hclauses, hkey⟩ := primaryKey_of_marks haccepted hmarks
  -- The key line adds nothing to what is read off the other lines.
  have hfilterMap {α : Type} (f : BodyLine → Option α) (hf : f (.primaryKey b.inlineKey) = none) :
      b'.body.filterMap f = b.body.filterMap fun l => f l.unmarked := by
    rw [hbody', List.filterMap_append, List.filterMap_cons_none hf, ← List.filterMap_append,
      ← hbody, List.filterMap_map]
    rfl
  have hflatMap {α : Type} (f : BodyLine → List α) (hf : f (.primaryKey b.inlineKey) = []) :
      b'.body.flatMap f = b.body.flatMap fun l => f l.unmarked := by
    rw [hbody', List.flatMap_append, List.flatMap_cons, hf, List.nil_append, ← List.flatMap_append,
      ← hbody, List.flatMap_map]
  have hclauses' : b'.clauseKeys = [b.inlineKey] := by
    have hnone : (front ++ back).filterMap BodyLine.clauseKey? = [] := by
      rw [← hbody, List.filterMap_map]
      simpa only [Function.comp_def, BodyLine.clauseKey?_unmarked, clauseKeys] using hclauses
    rw [List.filterMap_append, List.append_eq_nil_iff] at hnone
    rw [clauseKeys, hbody', List.filterMap_append, hnone.1]
    exact congrArg (b.inlineKey :: ·) hnone.2
  have hinline' : b'.inlineKey = [] := by
    rw [inlineKey, hflatMap _ rfl, List.flatMap_eq_nil_iff]
    exact fun l _ => l.inlineKey_unmarked
  have htypes' : b'.typeWords = b.typeWords := by
    rw [typeWords, hfilterMap _ rfl]
    simp only [BodyLine.typeWord?_unmarked, typeWords]
  refine ⟨hname, ?_, ⟨?_, ?_, .inr hinline'⟩, ?_, ?_⟩
  · rw [hkey, primaryKey, hclauses']
    rfl
  · rw [htypes']
    exact haccepted.known_types
  · rw [hclauses']
    exact Nat.le_refl 1
  · rw [hkey, Option.getD_some, columns, columns, List.map_filterMap, List.map_filterMap,
      hfilterMap _ rfl]
    refine List.filterMap_congr fun l hl => BodyLine.shadow_column?_unmarked fun name hname => ?_
    exact List.mem_flatMap.2 ⟨l, hl, hname⟩
  · rw [references, hflatMap _ rfl]
    simp only [BodyLine.references_unmarked, references]

/-- A reference can list the columns of the key that it means. -/
theorem Block.respelled_of_listAdded (haccepted : b.Accepted) (hbody : b.body = front ++ l :: back)
    (hline : l.ListAdded target names l')
    (hkey : (s.table? target).bind Table.primaryKey = some names) (hname : b'.name = b.name)
    (hbody' : b'.body = front ++ l' :: back) : b.Respelled s b' := by
  obtain ⟨htype, hcolumn, hinline, hclause⟩ := hline.same
  have hfilterMap {α : Type} (f : BodyLine → Option α) (hf : f l' = f l) :
      b'.body.filterMap f = b.body.filterMap f := by
    rw [hbody, hbody', List.filterMap_append, List.filterMap_append, List.filterMap_cons,
      List.filterMap_cons, hf]
  have hclauses' : b'.clauseKeys = b.clauseKeys := hfilterMap _ hclause
  have hinline' : b'.inlineKey = b.inlineKey := by
    rw [inlineKey, inlineKey, hbody, hbody', List.flatMap_append, List.flatMap_append,
      List.flatMap_cons, List.flatMap_cons, hinline]
  refine ⟨hname, ?_, ⟨?_, ?_, ?_⟩, ?_, ?_⟩
  · rw [primaryKey, primaryKey, hclauses', hinline']
  · rw [typeWords, hfilterMap _ htype]
    exact haccepted.known_types
  · rw [hclauses']
    exact haccepted.one_clause
  · rw [hclauses', hinline']
    exact haccepted.one_key
  · rw [columns, hfilterMap _ hcolumn, columns]
  · simp only [references, hbody, hbody', List.flatMap_append, List.flatMap_cons, List.map_append,
      hline.meaning_references hkey]

end

/-! ### Rewritten documents -/

/-- The documents have the same name, and the blocks of the one are rewritten blocks of the
other. -/
structure Document.Respelled (d d' : Document) : Prop where
  name : d'.name = d.name
  blocks : List.Forall₂ (Block.Respelled d.schema) d.blocks d'.blocks

theorem Block.Respelled.refl (s : Schema) {b : Block} (h : b.Accepted) : b.Respelled s b :=
  ⟨rfl, rfl, h, rfl, rfl⟩

theorem Block.Respelled.table_marked {s : Schema} {b b' : Block} (h : b.Respelled s b') :
    (b'.table.resolved s).marked = (b.table.resolved s).marked := by
  have hreferences : b'.references.map (ForeignKey.resolved s) =
      b.references.map (ForeignKey.resolved s) := map_resolved_congr h.references
  simp only [Table.marked, Table.resolved, Block.table, h.name, h.columns, h.primaryKey,
    hreferences]

theorem map_eq_map_of_forall₂ {α β γ : Type} {R : α → β → Prop} {f : α → γ} {g : β → γ}
    {l : List α} {l' : List β} (h : List.Forall₂ R l l') (hfg : ∀ a b, R a b → g b = f a) :
    l'.map g = l.map f := by
  induction h with
  | nil => rfl
  | cons hab _ ih => rw [List.map_cons, List.map_cons, hfg _ _ hab, ih]

theorem exists_of_mem_of_forall₂ {α β : Type} {R : α → β → Prop} {l : List α} {l' : List β} {b : β}
    (h : List.Forall₂ R l l') (hb : b ∈ l') : ∃ a ∈ l, R a b := by
  induction h with
  | nil => cases hb
  | @cons a _ _ _ hab _ ih =>
    obtain rfl | hb := List.mem_cons.1 hb
    · exact ⟨a, List.mem_cons_self, hab⟩
    · obtain ⟨a', ha', hab'⟩ := ih hb
      exact ⟨a', List.mem_cons_of_mem _ ha', hab'⟩

namespace Document.Respelled

variable {d d' : Document} (h : d.Respelled d')

include h

theorem targetColumns?_eq (fk : ForeignKey) :
    d'.schema.targetColumns? fk = d.schema.targetColumns? fk := by
  refine Schema.targetColumns?_congr ?_ fk
  rw [schema, schema, List.map_map, List.map_map]
  apply map_eq_map_of_forall₂ h.blocks
  intro b b' hb
  exact Prod.ext hb.name hb.primaryKey

theorem accepted (haccepted : d.Accepted) : d'.Accepted where
  blocks b' hb' := by
    obtain ⟨b, -, hb⟩ := exists_of_mem_of_forall₂ h.blocks hb'
    exact hb.accepted
  distinct := by
    have hnames : d'.blocks.map Block.name = d.blocks.map Block.name :=
      map_eq_map_of_forall₂ h.blocks fun _ _ hb => hb.name
    have hdistinct : (d.blocks.map Block.name).Pairwise fun a b => sameName a b = false :=
      List.pairwise_map.2 haccepted.distinct
    exact List.pairwise_map.1 (hnames ▸ hdistinct)

theorem resolvable (hresolvable : d.schema.Resolvable) : d'.schema.Resolvable := by
  intro t ht fk hfk
  obtain ⟨b', hb', rfl⟩ := List.mem_map.1 ht
  obtain ⟨b, hb, hrespelled⟩ := exists_of_mem_of_forall₂ h.blocks hb'
  rw [h.targetColumns?_eq]
  exact forall_isSome_targetColumns?_congr hrespelled.references
    (hresolvable b.table (List.mem_map_of_mem hb)) fk hfk

theorem marked_resolved : d'.schema.resolved.marked = d.schema.resolved.marked := by
  have hresolved : Table.resolved d'.schema = Table.resolved d.schema :=
    funext (Table.resolved_congr h.targetColumns?_eq)
  have htables : d'.schema.resolved.marked.tables = d.schema.resolved.marked.tables := by
    unfold Schema.marked Schema.resolved
    rw [hresolved]
    simp only [schema, List.map_map]
    exact map_eq_map_of_forall₂ h.blocks fun _ _ hb => hb.table_marked
  exact congrArg₂ Schema.mk h.name htables

end Document.Respelled

end SchemaText

/-! ### Rewritten texts -/

section

variable {text text' : String} {head : List Char} {before after : List TextBlock}
  {b b' : TextBlock} {s : Schema}

theorem Schema.targetColumns?_resolved_eq (s : Schema) (fk : ForeignKey) :
    s.resolved.targetColumns? fk = s.targetColumns? fk := by
  refine targetColumns?_congr ?_ fk
  rw [Schema.resolved, List.map_map]
  rfl

theorem SchemaText.Block.Respelled.congr {s s' : Schema} {d d' : Block} (h : d.Respelled s d')
    (hs : ∀ fk, s.targetColumns? fk = s'.targetColumns? fk) : d.Respelled s' d' := by
  have hmeaning : ForeignKey.meaning s = ForeignKey.meaning s' := by
    funext fk
    rw [ForeignKey.meaning, hs, ForeignKey.meaning]
  exact { h with references := hmeaning ▸ h.references }

/-- A text in which the lines of one table are rewritten is accepted and describes the same schema,
up to which key columns are said to be nullable. -/
theorem Schema.read_of_respelled (hread : read text = .ok s)
    (htext : contents text.toList = head :: (before ++ b :: after).flatMap TextBlock.lines)
    (htext' : contents text'.toList = head :: (before ++ b' :: after).flatMap TextBlock.lines)
    (hblock : ∀ d : Block, b.StandsFor d → d.Accepted → ∃ d', b'.StandsFor d' ∧ d.Respelled s d') :
    ∃ s', read text' = .ok s' ∧ s'.marked = s.marked := by
  obtain ⟨d, hlines, haccepted, hresolvable, rfl, hkeyed⟩ := read_eq_ok_iff.1 hread
  rw [htext, documentLines_flatMap_iff] at hlines
  obtain ⟨hname, hblocks⟩ := hlines
  obtain ⟨ds, rest, hdocument, hds, hrest⟩ := forall₂_append_left_iff.1 hblocks
  obtain ⟨block, ds', hb, hds', rfl⟩ := List.forall₂_cons_left_iff.1 hrest
  have haccepted' := haccepted.blocks
  rw [hdocument, List.forall_mem_append, List.forall_mem_cons] at haccepted'
  obtain ⟨hbefore, hmiddle, hafter⟩ := haccepted'
  obtain ⟨block', hb', hblock'⟩ := hblock block hb hmiddle
  let d' : Document := { name := d.name, blocks := ds ++ block' :: ds' }
  have hrespelled : d.Respelled d' := by
    refine ⟨rfl, ?_⟩
    rw [hdocument]
    refine forall₂_append_left_iff.2 ⟨ds, block' :: ds', rfl, ?_, .cons ?_ ?_⟩
    · exact List.forall₂_same.2 fun b hb => .refl d.schema (hbefore b hb)
    · exact hblock'.congr d.schema.targetColumns?_resolved_eq
    · exact List.forall₂_same.2 fun b hb => .refl d.schema (hafter b hb)
  have hlines' : DocumentLines .read (contents text'.toList) d' := by
    rw [htext', documentLines_flatMap_iff]
    exact ⟨hname, forall₂_append_left_iff.2 ⟨ds, _, rfl, hds, .cons hb' hds'⟩⟩
  have hmarked := hrespelled.marked_resolved
  have hkeyed' : d'.schema.resolved.WellKeyed := by
    rw [← wellKeyed_marked_iff, hmarked, wellKeyed_marked_iff]
    exact hkeyed
  exact ⟨_, read_eq_ok_iff.2 ⟨d', hlines', hrespelled.accepted haccepted,
    hrespelled.resolvable hresolvable, rfl, hkeyed'⟩, hmarked⟩

end

namespace SchemaText

/-- The lines of one table of the text are changed; comments, blank lines and the white space around
lines may be others. -/
def BlockChanged (change : TextBlock → TextBlock → Prop) (text text' : String) : Prop :=
  ∃ head before b b' after,
    contents text.toList = head :: (before ++ b :: after).flatMap TextBlock.lines ∧
      contents text'.toList = head :: (before ++ b' :: after).flatMap TextBlock.lines ∧ change b b'

/-- One table of the text is rewritten: its primary key is given by a line instead of marks, or one
of its references lists the primary key of its target, which it has left out. -/
inductive Respelling (text text' : String) : Prop where
  | keyMoved : BlockChanged TextBlock.KeyMoved text text' → Respelling text text'
  | listGiven {s : Schema} {target : String} {t : Table} {names : List String} :
      Schema.read text = .ok s → s.First target t → t.primaryKey = some names →
        BlockChanged (TextBlock.ListGiven target names) text text' → Respelling text text'

end SchemaText

section

variable {text text' : String} {s : Schema}

theorem Schema.read_of_respelling (hread : read text = .ok s) (h : Respelling text text') :
    ∃ s', read text' = .ok s' ∧ s'.marked = s.marked := by
  cases h with
  | keyMoved h =>
    obtain ⟨head, before, b, b', after, htext, htext', hmoved⟩ := h
    refine read_of_respelled hread htext htext' fun d hb haccepted => ?_
    obtain ⟨front, back, hmarks, hbody, hb'⟩ := hmoved.standsFor hb
    exact ⟨_, hb', Block.respelled_of_keyMoved s haccepted hmarks hbody rfl rfl⟩
  | @listGiven s' target t names hread' hfirst hkey h =>
    obtain rfl := Except.ok.inj (hread.symm.trans hread')
    obtain ⟨head, before, b, b', after, htext, htext', hgiven⟩ := h
    refine read_of_respelled hread htext htext' fun d hb haccepted => ?_
    obtain ⟨front, l, l', back, hbody, hline, hb'⟩ := hgiven.standsFor hb
    have hmeans : (s.table? target).bind Table.primaryKey = some names := by
      rw [table?_eq_some_iff_first.2 hfirst]
      exact hkey
    exact ⟨_, hb', Block.respelled_of_listAdded haccepted hbody hline hmeans rfl rfl⟩

/-- However often the tables of a text are rewritten from one spelling of keys and references to the
other, the text is accepted if it was accepted before, and the same texts are generated from it. -/
theorem Schema.sameTexts_of_respelling (hread : read text = .ok s)
    (h : Relation.ReflTransGen Respelling text text') :
    ∃ s', read text' = .ok s' ∧ ∀ config, s.SameTexts s' config := by
  have hmarked : ∃ s', read text' = .ok s' ∧ s'.marked = s.marked := by
    induction h with
    | refl => exact ⟨s, hread, rfl⟩
    | tail _ hstep ih =>
      obtain ⟨s₁, hread₁, hmarked₁⟩ := ih
      obtain ⟨s₂, hread₂, hmarked₂⟩ := read_of_respelling hread₁ hstep
      exact ⟨s₂, hread₂, hmarked₂.trans hmarked₁⟩
  obtain ⟨s', hread', hmarked⟩ := hmarked
  exact ⟨s', hread', sameTexts_of_marked_eq hmarked.symm⟩

end

/-! ### Both rewritings -/

namespace SchemaText

/-- A table with a marked column. -/
def markedBlock : TextBlock :=
  { head := "table a\x7b".toList
    inner := ["k int primary_key".toList]
    brace_notMem := by decide }

/-- The table with a line for the primary key. -/
def keyedBlock : TextBlock :=
  { head := "table a\x7b".toList
    inner := ["k int".toList, "primary key (k)".toList]
    brace_notMem := by decide }

/-- A table that refers to the other and lists no columns. -/
def referringBlock : TextBlock :=
  { head := "table b\x7b".toList
    inner := ["m int references a".toList]
    brace_notMem := by decide }

/-- The table with the columns that it refers to. -/
def listingBlock : TextBlock :=
  { head := "table b\x7b".toList
    inner := ["m int references a (k)".toList]
    brace_notMem := by decide }

section

open Grammar

theorem names_k : Names "(k)".toList ["k"] := by
  have hnames : Names ('(' :: [] ++ "k".toList ++ [] ++ [] ++ [')']) ["k"] :=
    .list (by decide) (by decide) .nil (by decide)
  exact hnames

theorem keyMoved_keyedBlock : markedBlock.KeyMoved keyedBlock := by
  have hgap : Gap [' '] := by decide
  have hk : Word "k".toList "k" := by decide
  have hint : Word "int".toList "int" := by decide
  have hmark : constraint ("primary_key".toList ++ []) = some (.primaryKey, []) := by decide +kernel
  have hcut : MarksCut " primary_key".toList [] 1 := .mark hgap hmark .nil
  have hline : LinesCut markedBlock.inner ["k int".toList] ["k"] :=
    .column hk hgap hint hcut hgap .nil
  have hprimary : Keyword "primary" "primary".toList := by decide
  have hkeyword : Keyword "key" "key".toList := by decide
  have hkey : KeyClause "primary" "primary key (k)".toList ["k"] :=
    .clause hprimary hgap hkeyword hgap.2 names_k
  exact ⟨["k int".toList], "primary key (k)".toList, [], ["k"], hline, hkey, rfl, rfl⟩

theorem listGiven_listingBlock : referringBlock.ListGiven "a" ["k"] listingBlock := by
  have hgap : Gap [' '] := by decide
  have hm : Word "m".toList "m" := by decide
  have hint : Word "int".toList "int" := by decide
  have hreference : reference ("references a".toList ++ []) = some (("a", []), []) := by
    decide +kernel
  have hadded : ListAdded "a" ["k"] " references a".toList " references a (k)".toList :=
    .here hgap hreference hgap.2 names_k
  have hline : ReferenceLine "a" ["k"] "m int references a".toList
      "m int references a (k)".toList :=
    .column hm hgap hint hadded
  exact ⟨[], _, _, [], hline, rfl, rfl, rfl⟩

end

end SchemaText

/-- The schema that the blocks describe; moving the key makes its column nullable. -/
def Schema.linked (nullable : Bool) : Schema :=
  { name := "s"
    tables :=
      [{ name := "a", columns := [{ name := "k", type := .integer, nullable }]
         primaryKey := some ["k"], foreignKeys := [] },
        { name := "b", columns := [{ name := "m", type := .integer, nullable := true }]
          primaryKey := none
          foreignKeys := [{ columns := ["m"], target := "a", targetColumns := ["k"] }] }] }

/-- A key is moved to a line of its own, and then a reference to it is made to list it. -/
theorem Schema.sameTexts_of_respelling_linked :
    ∃ text text' s s', read text = .ok s ∧ Relation.ReflTransGen Respelling text text' ∧
      read text' = .ok s' ∧ s ≠ s' ∧ ∀ config, s.SameTexts s' config := by
  let text := "schema s\ntable a\x7b\nk int primary_key\n\x7d\n" ++
    "table b\x7b\nm int references a\n\x7d"
  let text₁ := "schema s\ntable a\x7b\nk int\nprimary key (k) # moved\n\x7d\n" ++
    "table b\x7b\nm int references a\n\x7d"
  let text₂ := "schema s\ntable a\x7b\nk int\nprimary key (k) # moved\n\x7d\n" ++
    "table b\x7b\n  m int references a (k)\n\x7d"
  have hread : read text = .ok (linked false) := by decide +kernel
  have hread₁ : read text₁ = .ok (linked true) := by decide +kernel
  have hmoved : Respelling text text₁ := .keyMoved
    ⟨"schema s".toList, [], markedBlock, keyedBlock, [referringBlock], by decide +kernel,
      by decide +kernel, keyMoved_keyedBlock⟩
  have hfound : (linked true).table? "a" = some (linked true).tables[0] := by decide +kernel
  have hgiven : Respelling text₁ text₂ := .listGiven hread₁ (table?_eq_some_iff_first.1 hfound) rfl
    ⟨"schema s".toList, [keyedBlock], referringBlock, listingBlock, [], by decide +kernel,
      by decide +kernel, listGiven_listingBlock⟩
  have hsteps : Relation.ReflTransGen Respelling text text₂ := .tail (.single hmoved) hgiven
  obtain ⟨s', hread₂, hsame⟩ := sameTexts_of_respelling hread hsteps
  have hs' : read text₂ = .ok (linked true) := by decide +kernel
  obtain rfl := Except.ok.inj (hs'.symm.trans hread₂)
  exact ⟨text, text₂, _, _, hread, hsteps, hs', by decide, hsame⟩

end Overlay
