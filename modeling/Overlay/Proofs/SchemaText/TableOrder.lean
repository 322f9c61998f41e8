import Overlay.Proofs.Schema.Permutation
import Overlay.Proofs.SchemaText.Acceptance

/-!
# Texts with their tables in another order

A text is cut into the lines of its tables (`TextBlock`) before any of them is read. If the blocks
are put into another order, the text is accepted if it was accepted before, and describes the same
tables in the order of the blocks (`Schema.read_of_perm`).
-/

namespace Overlay

open SchemaText Text

namespace SchemaText

/-- The lines of a table in a text: a head, the lines inside the table, none of which is a closing
brace, and then the brace. -/
structure TextBlock where
  head : List Char
  inner : List (List Char)
  brace_notMem : ['}'] ∉ inner

namespace TextBlock

/-- The lines of a block with the closing brace. -/
def lines (b : TextBlock) : List (List Char) :=
  b.head :: b.inner ++ [['}']]

theorem lines_append (b : TextBlock) (rest : List (List Char)) :
    b.lines ++ rest = b.head :: (b.inner ++ ['}'] :: rest) := by
  simp [lines]

/-- The lines of a block are read as the block `d`. -/
structure StandsFor (b : TextBlock) (d : Block) : Prop where
  head : tableHead? b.head = some d.name
  body : List.Forall₂ (fun line l => bodyLine? line = some l) b.inner d.body

theorem rightUnique_standsFor : Relator.RightUnique StandsFor := by
  rintro b ⟨name, body⟩ ⟨name', body'⟩ ⟨hhead, hbody⟩ ⟨hhead', hbody'⟩
  have hline : Relator.RightUnique fun line l => bodyLine? line = some l :=
    fun _ _ _ hl hl' => Option.some.inj (hl.symm.trans hl')
  obtain rfl : name = name' := Option.some.inj (hhead.symm.trans hhead')
  obtain rfl : body = body' := hline.forall₂ hbody hbody'
  rfl

end TextBlock

/-! ### Lines of blocks -/

/-- A list is parted in one way only at the first place of an element. -/
theorem append_cons_inj_of_notMem_left {α : Type} {a : α} {l l' r r' : List α} (hl : a ∉ l)
    (hl' : a ∉ l') (h : l ++ a :: r = l' ++ a :: r') : l = l' ∧ r = r' := by
  induction l generalizing l' with
  | nil =>
    cases l' with
    | nil => exact ⟨rfl, List.tail_eq_of_cons_eq h⟩
    | cons b l' =>
      obtain rfl := (List.cons.inj h).1
      exact absurd List.mem_cons_self hl'
  | cons b l ih =>
    cases l' with
    | nil =>
      obtain rfl := (List.cons.inj h).1
      exact absurd List.mem_cons_self hl
    | cons b' l' =>
      obtain ⟨rfl, htail⟩ := List.cons.inj h
      obtain ⟨rfl, rfl⟩ := ih (List.not_mem_of_not_mem_cons hl)
        (List.not_mem_of_not_mem_cons hl') htail
      exact ⟨rfl, rfl⟩

theorem brace_notMem_of_forall₂ {inner : List (List Char)} {body : List BodyLine}
    (h : List.Forall₂ (fun line l => bodyLine? line = some l) inner body) : ['}'] ∉ inner := by
  induction h with
  | nil => exact List.not_mem_nil
  | cons hline _ ih =>
    intro hmem
    obtain rfl | hmem := List.mem_cons.1 hmem
    · rw [bodyLine?_brace] at hline
      cases hline
    · exact ih hmem

section

variable {head : List Char} {blocks blocks' : List TextBlock} {ds : List Block} {d : Document}

/-- The lines of blocks are read block by block: a brace closes each, and only the last line of a
block is one. -/
theorem blockLines_flatMap_iff :
    BlockLines .read (blocks.flatMap TextBlock.lines) ds ↔
      List.Forall₂ TextBlock.StandsFor blocks ds := by
  constructor
  · intro h
    generalize hls : blocks.flatMap TextBlock.lines = ls at h
    induction h generalizing blocks with
    | nil =>
      cases blocks with
      | nil => exact .nil
      | cons b blocks => simp [TextBlock.lines] at hls
    | cons hhead hinner _ ih =>
      cases blocks with
      | nil => simp at hls
      | cons b blocks =>
        rw [List.flatMap_cons, b.lines_append] at hls
        obtain ⟨rfl, htail⟩ := List.cons.inj hls
        obtain ⟨rfl, hrest⟩ := append_cons_inj_of_notMem_left b.brace_notMem
          (brace_notMem_of_forall₂ hinner) htail
        exact .cons ⟨hhead, hinner⟩ (ih hrest)
  · intro h
    induction h with
    | nil => exact .nil
    | cons hb _ ih =>
      rw [List.flatMap_cons, TextBlock.lines_append]
      exact .cons hb.head hb.body ih

theorem documentLines_flatMap_iff :
    DocumentLines .read (head :: blocks.flatMap TextBlock.lines) d ↔
      schemaHead? head = some d.name ∧ List.Forall₂ TextBlock.StandsFor blocks d.blocks := by
  constructor
  · rintro ⟨hname, hblocks⟩
    exact ⟨hname, blockLines_flatMap_iff.1 hblocks⟩
  · rintro ⟨hname, hblocks⟩
    exact .document hname (blockLines_flatMap_iff.2 hblocks)

/-- What the lines of blocks are read as is a function of the single block. -/
theorem exists_eq_map_of_standsFor (h : List.Forall₂ TextBlock.StandsFor blocks ds) :
    ∃ read : TextBlock → Block, ds = blocks.map read ∧ ∀ b ∈ blocks, b.StandsFor (read b) := by
  have hread : ∀ b ∈ blocks, ∃ d, b.StandsFor d := by
    induction h with
    | nil => simp
    | cons hb _ ih => exact List.forall_mem_cons.2 ⟨⟨_, hb⟩, ih⟩
  have hblock : Nonempty Block := ⟨{ name := "", body := [] }⟩
  choose! read hread using hread
  have hmap : List.Forall₂ TextBlock.StandsFor blocks (blocks.map read) :=
    List.forall₂_map_right_iff.2 (List.forall₂_same.2 hread)
  exact ⟨read, TextBlock.rightUnique_standsFor.forall₂ h hmap, hread⟩

end

end SchemaText

/-! ### Texts -/

section

variable {text text' : String} {head : List Char} {blocks blocks' : List TextBlock} {s : Schema}

/-- A text whose blocks stand in another order describes the tables in that order. -/
theorem Schema.read_of_perm (hperm : blocks.Perm blocks')
    (htext : contents text.toList = head :: blocks.flatMap TextBlock.lines)
    (htext' : contents text'.toList = head :: blocks'.flatMap TextBlock.lines)
    (hread : read text = .ok s) :
    ∃ s' declared, read text' = .ok s' ∧ s.Permuted s' ∧
      (∀ b ∈ blocks, tableHead? b.head = some (declared b).name) ∧
      s.tables = blocks.map declared ∧ s'.tables = blocks'.map declared := by
  obtain ⟨d, hlines, haccepted, hresolvable, rfl, hkeyed⟩ := read_eq_ok_iff.1 hread
  rw [htext, documentLines_flatMap_iff] at hlines
  obtain ⟨hname, hblocks⟩ := hlines
  obtain ⟨block, hds, hblock⟩ := exists_eq_map_of_standsFor hblocks
  let d' : Document := { name := d.name, blocks := blocks'.map block }
  have hds' : d.blocks.Perm d'.blocks := hds ▸ hperm.map block
  have hpermuted : d.schema.Permuted d'.schema := ⟨rfl, hds'.map Block.table⟩
  have hdistinct := haccepted.distinctTables
  have hlines' : DocumentLines .read (contents text'.toList) d' := by
    rw [htext', documentLines_flatMap_iff]
    exact ⟨hname, List.forall₂_map_right_iff.2
      (List.forall₂_same.2 fun b hb => hblock b (hperm.mem_iff.2 hb))⟩
  have haccepted' : d'.Accepted :=
    ⟨fun b hb => haccepted.blocks b (hds'.mem_iff.2 hb),
      List.pairwise_map.1 (hpermuted.distinctTables hdistinct)⟩
  have hresolved := hpermuted.resolved hdistinct
  have htables (e : Document) :
      e.schema.resolved.tables = e.blocks.map fun b => b.table.resolved e.schema :=
    List.map_map
  refine ⟨d'.schema.resolved, fun b => (block b).table.resolved d.schema, ?_, hresolved,
    fun b hb => (hblock b hb).head, ?_, ?_⟩
  · exact read_eq_ok_iff.2 ⟨d', hlines', haccepted', hpermuted.resolvable hdistinct hresolvable,
      rfl, hresolved.wellKeyed hdistinct.resolved hkeyed⟩
  · rw [htables, hds, List.map_map]
    rfl
  · rw [htables, List.map_map]
    exact List.map_congr_left fun b _ => (hpermuted.table_resolved_eq hdistinct _).symm

end

end Overlay
