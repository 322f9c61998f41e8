import Overlay.Proofs.Schema.Reference
import Overlay.Proofs.Schema.Validity
import Overlay.Proofs.SchemaText.DocumentReading

/-!
# The texts that are accepted

A schema text is read if its lines form a document by the grammar and the document is sound: its
tables are accepted one by one, their keys consist of columns that can identify a row, and every
reference pairs columns of two tables of the document (`Document.Sound`). Nothing else is refused
and nothing else is taken. This holds for texts without KELVIN SIGN, which keywords count as a
letter.
-/

namespace Overlay

open SchemaText Text

/-! ### Reading in three steps -/

/-- A schema is read if the text declares one whose references can be resolved and whose keys are
then valid. -/
theorem Schema.read_eq_ok_iff {text : String} {s : Schema} :
    read text = .ok s ↔
      ∃ d : Document, DocumentLines .read (contents text.toList) d ∧ d.Accepted ∧
        d.schema.Resolvable ∧ s = d.schema.resolved ∧ s.WellKeyed := by
  simp only [read, bind_eq_ok_iff, declared_eq_ok_iff, resolve_eq_ok_iff, Except.ok.injEq]
  constructor
  · rintro ⟨_, ⟨d, hlines, haccepted, rfl⟩, _, ⟨hresolvable, rfl⟩, ⟨⟩, hvalid, rfl⟩
    exact ⟨d, hlines, haccepted, hresolvable, rfl, validate_eq_ok_iff_wellKeyed.1 hvalid⟩
  · rintro ⟨d, hlines, haccepted, hresolvable, rfl, hvalid⟩
    exact ⟨_, ⟨d, hlines, haccepted, rfl⟩, _, ⟨hresolvable, rfl⟩, (),
      validate_eq_ok_iff_wellKeyed.2 hvalid, rfl⟩

/-! ### Sound documents -/

/-- The columns of its target that a reference means: those it lists, else the primary key of the
target. -/
def ForeignKey.Means (fk : ForeignKey) (target : Table) (names : List String) : Prop :=
  fk.targetColumns ≠ [] ∧ fk.targetColumns = names ∨
    fk.targetColumns = [] ∧ target.primaryKey = some names

/-- A reference of the table `t` pairs its columns with as many columns of the table `target`. -/
def ForeignKey.Pairs (fk : ForeignKey) (t target : Table) : Prop :=
  ∃ names, fk.Means target names ∧ fk.columns.length = names.length ∧
    (∀ name ∈ fk.columns, t.HasColumn name) ∧ ∀ name ∈ names, target.HasColumn name

/-- The rules for documents beyond the grammar. -/
structure SchemaText.Document.Sound (d : Document) : Prop where
  accepted : d.Accepted
  keys : ∀ t ∈ d.schema.tables, ∀ key, t.primaryKey = some key →
    ∀ name ∈ key, t.HasKeyColumn name
  references : ∀ t ∈ d.schema.tables, ∀ fk ∈ t.foreignKeys,
    ∃ target ∈ d.schema.tables, sameName target.name fk.target = true ∧ fk.Pairs t target

section

variable {s : Schema} {t target : Table} {fk : ForeignKey} {names : List String}

theorem Schema.targetColumns?_eq_some_iff (h : s.table? fk.target = some target) :
    s.targetColumns? fk = some names ↔ fk.Means target names := by
  unfold targetColumns? ForeignKey.Means
  by_cases hnil : fk.targetColumns = [] <;> simp [hnil, h]

/-- A reference is valid after resolving if it pairs columns. -/
theorem ForeignKey.valid_resolved_iff (hs : s.DistinctTables) (hcolumns : fk.columns ≠ []) :
    ((s.targetColumns? fk).isSome ∧
      ∃ target, (fk.resolved s).Valid s.resolved (t.resolved s) target) ↔
      ∃ target ∈ s.tables, sameName target.name fk.target = true ∧ fk.Pairs t target := by
  constructor
  · rintro ⟨hsome, target', hvalid⟩
    obtain ⟨names, hnames⟩ := Option.isSome_iff_exists.1 hsome
    have hfound := hvalid.found
    rw [Schema.table?_resolved, Option.map_eq_some_iff] at hfound
    obtain ⟨target, hfound, rfl⟩ := hfound
    have htarget : s.table? fk.target = some target := hfound
    have hresolved : (fk.resolved s).targetColumns = names := by
      rw [resolved, hnames, Option.getD_some]
    obtain ⟨hmem, hname⟩ := Schema.mem_of_table? htarget
    refine ⟨target, hmem, hname, names, (Schema.targetColumns?_eq_some_iff htarget).1 hnames, ?_,
      hvalid.columns, ?_⟩
    · rw [← hresolved]
      exact hvalid.length_eq
    · rw [← hresolved]
      exact hvalid.targetColumns
  · rintro ⟨target, hmem, hname, names, hmeans, hlength, hlocal, htargets⟩
    have htarget : s.table? fk.target = some target := hs.table?_eq_some_iff.2 ⟨hmem, hname⟩
    have hnames := (Schema.targetColumns?_eq_some_iff htarget).2 hmeans
    have hresolved : (fk.resolved s).targetColumns = names := by
      rw [resolved, hnames, Option.getD_some]
    refine ⟨Option.isSome_of_eq_some hnames, target.resolved s, ?_, hcolumns, ?_, hlocal, ?_⟩
    · exact Schema.table?_resolved.trans (htarget ▸ rfl)
    · rw [hresolved]
      exact hlength
    · rw [hresolved]
      exact htargets

/-- A document whose keys list columns is sound if it is accepted and its references can be resolved
to a schema with valid keys. -/
theorem SchemaText.Document.sound_iff {d : Document}
    (hlists : ∀ b ∈ d.blocks, ∀ line ∈ b.body, line.ListsColumns) :
    d.Sound ↔ d.Accepted ∧ d.schema.Resolvable ∧ d.schema.resolved.WellKeyed := by
  have hcolumns (t : Table) (ht : t ∈ d.schema.tables) (fk : ForeignKey)
      (hfk : fk ∈ t.foreignKeys) : fk.columns ≠ [] := by
    obtain ⟨b, hb, rfl⟩ := List.mem_map.1 ht
    exact Block.columns_ne_nil_of_mem_references (hlists b hb) hfk
  constructor
  · rintro ⟨haccepted, hkeys, hreferences⟩
    have hvalid (t : Table) (ht : t ∈ d.schema.tables) (fk : ForeignKey)
        (hfk : fk ∈ t.foreignKeys) :=
      (ForeignKey.valid_resolved_iff haccepted.distinctTables (hcolumns t ht fk hfk)).2
        (hreferences t ht fk hfk)
    refine ⟨haccepted, fun t ht fk hfk => (hvalid t ht fk hfk).1, fun t' ht' => ?_⟩
    obtain ⟨t, ht, rfl⟩ := List.mem_map.1 ht'
    refine ⟨fun key hkey => ⟨?_, hkeys t ht key hkey⟩, fun fk' hfk' => ?_⟩
    · obtain ⟨b, hb, rfl⟩ := List.mem_map.1 ht
      exact Block.ne_nil_of_primaryKey (hlists b hb) hkey
    · obtain ⟨fk, hfk, rfl⟩ := List.mem_map.1 hfk'
      exact (hvalid t ht fk hfk).2
  · rintro ⟨haccepted, hresolvable, hvalid⟩
    have hkeyed (t : Table) (ht : t ∈ d.schema.tables) :=
      hvalid (t.resolved d.schema) (List.mem_map_of_mem ht)
    refine ⟨haccepted, fun t ht key hkey => ((hkeyed t ht).primaryKey key hkey).2,
      fun t ht fk hfk => ?_⟩
    refine (ForeignKey.valid_resolved_iff haccepted.distinctTables (hcolumns t ht fk hfk)).1
      ⟨hresolvable t ht fk hfk, ?_⟩
    exact (hkeyed t ht).foreignKeys (fk.resolved d.schema) (List.mem_map_of_mem hfk)

end

/-! ### Texts by the grammar -/

/-- A text without KELVIN SIGN is read if its lines are a sound document by the grammar, and then
the schema is that of the document with its references resolved. -/
theorem Schema.read_eq_ok_iff_sound {text : String} {s : Schema}
    (h : Grammar.kelvinSign ∉ text.toList) :
    read text = .ok s ↔
      ∃ d : Document, DocumentLines .grammar (contents text.toList) d ∧ d.Sound ∧
        s = d.schema.resolved := by
  rw [read_eq_ok_iff]
  refine exists_congr fun d => ?_
  rw [documentLines_read_iff fun l hl hmem => h (mem_of_mem_contents hl hmem)]
  constructor
  · rintro ⟨hlines, haccepted, hresolvable, rfl, hkeyed⟩
    exact ⟨hlines, (Document.sound_iff hlines.listsColumns).2 ⟨haccepted, hresolvable, hkeyed⟩, rfl⟩
  · rintro ⟨hlines, hsound, rfl⟩
    obtain ⟨haccepted, hresolvable, hkeyed⟩ := (Document.sound_iff hlines.listsColumns).1 hsound
    exact ⟨hlines, haccepted, hresolvable, rfl, hkeyed⟩

/-- A text without KELVIN SIGN is accepted exactly if its lines are a sound document. -/
theorem Schema.isOk_read_iff {text : String} (h : Grammar.kelvinSign ∉ text.toList) :
    (∃ s, read text = .ok s) ↔
      ∃ d : Document, DocumentLines .grammar (contents text.toList) d ∧ d.Sound := by
  simp only [read_eq_ok_iff_sound h]
  constructor
  · rintro ⟨_, d, hlines, hsound, -⟩
    exact ⟨d, hlines, hsound⟩
  · rintro ⟨d, hlines, hsound⟩
    exact ⟨_, d, hlines, hsound, rfl⟩

theorem Schema.isOk_read_selfReference :
    ∃ d : Document, DocumentLines .grammar
      (contents "schema s\nTable a\x7b # a\nk int Primary_Key references a\n\x7d".toList) d ∧
        d.Sound :=
  (isOk_read_iff (by decide)).1
    ⟨{ name := "s"
       tables :=
        [{ name := "a"
           columns := [{ name := "k", type := .integer, nullable := false }]
           primaryKey := some ["k"]
           foreignKeys := [{ columns := ["k"], target := "a", targetColumns := ["k"] }] }] },
      by decide +kernel⟩

end Overlay
