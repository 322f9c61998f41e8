import Overlay.Proofs.Layer.Requirements

/-!
# Layers and unrelated tables

The layer of a table is made from the table itself, the tables that refer to it, and the tables that
any of these refer to. A table that is none of them can stand anywhere in the schema: the layer, or
the error in its place, is the same with and without it (`Schema.layer_insertTable`).
-/

namespace Overlay

open Text

/-- The schema with a further table at position `i`; behind the last table there is no position. -/
def Schema.insertTable (s : Schema) (i : Nat) (u : Table) : Schema :=
  { s with tables := s.tables.insertIdx i u }

/-! ### Lists with a further item -/

section

variable {α β ε : Type}

theorem find?_insertIdx_of_eq_false {p : α → Bool} {a : α} (h : p a = false) (l : List α)
    (i : Nat) : (l.insertIdx i a).find? p = l.find? p := by
  induction l generalizing i with
  | nil => cases i <;> simp [h]
  | cons b l ih =>
    cases i with
    | zero => simp [h]
    | succ i => rw [List.insertIdx_succ_cons, List.find?_cons, List.find?_cons, ih]

theorem flatMap_insertIdx_of_eq_nil {f : α → List β} {a : α} (h : f a = []) (l : List α) (i : Nat) :
    (l.insertIdx i a).flatMap f = l.flatMap f := by
  induction l generalizing i with
  | nil => cases i <;> simp [h]
  | cons b l ih =>
    cases i with
    | zero => simp [h]
    | succ i => rw [List.insertIdx_succ_cons, List.flatMap_cons, List.flatMap_cons, ih]

theorem forM_congr {f g : α → Except ε Unit} {l : List α} (h : ∀ a ∈ l, f a = g a) :
    l.forM f = l.forM g := by
  induction l with
  | nil => rfl
  | cons a l ih =>
    have hrest := ih fun b hb => h b (List.mem_cons_of_mem a hb)
    rw [List.forM_eq_forM] at hrest ⊢
    rw [List.forM_cons, h a List.mem_cons_self, hrest]
    rfl

end

/-! ### What the further table does not change -/

section

variable {s : Schema} {i : Nat} {t u : Table} {fk : ForeignKey} {name : String}

theorem Schema.table?_insertTable (h : sameName u.name name = false) :
    (s.insertTable i u).table? name = s.table? name :=
  find?_insertIdx_of_eq_false (p := fun t : Table => sameName t.name name) h s.tables i

theorem Table.not_refersTo_iff :
    ¬t.RefersTo u ↔ ∀ fk ∈ t.foreignKeys, sameName fk.target u.name = false := by
  simp [RefersTo]

theorem Schema.referencing_insertTable (h : ¬u.RefersTo t) :
    (s.insertTable i u).referencing t.name = s.referencing t.name := by
  apply flatMap_insertIdx_of_eq_nil
  rw [List.map_eq_nil_iff, List.filter_eq_nil_iff]
  intro fk hfk
  simp [Table.not_refersTo_iff.1 h fk hfk]

theorem Schema.validateTable_insertTable (h : ¬t.RefersTo u) :
    (s.insertTable i u).validateTable t = s.validateTable t := by
  have hcheck (fk : ForeignKey) (hfk : fk ∈ t.foreignKeys) :
      t.checkForeignKey (s.insertTable i u) fk = t.checkForeignKey s fk := by
    have hname : sameName u.name fk.target = false := by
      rw [sameName_comm]
      exact Table.not_refersTo_iff.1 h fk hfk
    rw [Table.checkForeignKey, table?_insertTable hname, Table.checkForeignKey]
  rw [validateTable, forM_congr hcheck, validateTable]

theorem Table.layer_of_insertTable (config : Config) (key : List String) (h : ¬u.RefersTo t) :
    t.layer config (s.insertTable i u) key = t.layer config s key := by
  have hredirection :
      t.redirection config (s.insertTable i u) key = t.redirection config s key := by
    rw [redirection, Schema.referencing_insertTable h]
    rfl
  rw [layer, hredirection, layer]

/-- A table with valid keys refers to tables of the schema only. -/
theorem Table.WellKeyed.not_refersTo (h : t.WellKeyed s)
    (hname : ∀ v ∈ s.tables, sameName v.name u.name = false) : ¬t.RefersTo u := by
  rintro ⟨fk, hfk, htarget⟩
  obtain ⟨target, hvalid⟩ := h.foreignKeys fk hfk
  obtain ⟨hmem, hfound⟩ := Schema.mem_of_table? hvalid.found
  have hsame := sameName_trans hfound htarget
  rw [hname target hmem] at hsame
  cases hsame

end

namespace Schema

/-- A further table that does not refer to the requested one changes nothing, neither the layer nor
the error, if neither the requested table nor a table that refers to it refers to the further one.
If it has a name of its own, it leaves at least each layer as it is that is built without it. -/
theorem layer_insertTable {s : Schema} {u : Table} {name : String} (config : Config) (i : Nat)
    (hrequested : sameName u.name name = false)
    (hrefers : ∀ t, s.First name t → ¬u.RefersTo t) :
    ((∀ t, s.First name t →
        ¬t.RefersTo u ∧ ∀ owner ∈ s.tables, owner.RefersTo t → ¬owner.RefersTo u) →
      (s.insertTable i u).layer config name = s.layer config name) ∧
    ((∀ t ∈ s.tables, sameName t.name u.name = false) →
      ∀ l, s.layer config name = .ok l → (s.insertTable i u).layer config name = .ok l) := by
  have hsame (hunrelated : ∀ t, s.First name t →
      ¬t.RefersTo u ∧ ∀ owner ∈ s.tables, owner.RefersTo t → ¬owner.RefersTo u) :
      (s.insertTable i u).layer config name = s.layer config name := by
    rw [layer, table?_insertTable hrequested, layer]
    cases hfound : s.table? name with
    | none => rfl
    | some t =>
      have hfirst := table?_eq_some_iff_first.1 hfound
      obtain ⟨ht, howners⟩ := hunrelated t hfirst
      have howner (reference : Table × ForeignKey) (hmem : reference ∈ s.referencing t.name) :
          (s.insertTable i u).validateTable reference.1 = s.validateTable reference.1 := by
        obtain ⟨hreference, hfk, htarget⟩ := mem_referencing.1 hmem
        exact validateTable_insertTable (howners _ hreference ⟨_, hfk, htarget⟩)
      simp only [validateTable_insertTable ht, referencing_insertTable (hrefers t hfirst),
        forM_congr howner, Table.layer_of_insertTable _ _ (hrefers t hfirst)]
  refine ⟨hsame, fun hfresh l hl => ?_⟩
  -- All tables that the layer is made from have valid keys, so that none of them refers to `u`.
  rw [hsame ?_, hl]
  intro t hfirst
  obtain ⟨t', -, hfirst', -, ht, -⟩ := layer_eq_ok_iff_redirectable.1 hl
  obtain rfl := hfirst'.unique hfirst
  exact ⟨ht.wellKeyed.not_refersTo hfresh,
    fun owner howner hrefersTo => (ht.owners owner howner hrefersTo).not_refersTo hfresh⟩

/-- A table that refers to the first table of `repeated`, which refers to the second. -/
def ofReferring : Table :=
  { name := "log"
    columns := [{ name := "r", type := .integer, nullable := true }]
    primaryKey := none
    foreignKeys := [{ columns := ["r"], target := "d", targetColumns := ["r"] }] }

theorem layer_insertTable_repeated :
    (repeated.insertTable 1 ofReferring).layer {} "t" = repeated.layer {} "t" ∧
      ∃ l, (repeated.insertTable 1 ofReferring).layer {} "t" = .ok l := by
  have hrefers (t : Table) (hfirst : repeated.First "t" t) : ¬ofReferring.RefersTo t := by
    rintro ⟨fk, hfk, htarget⟩
    have hname := sameName_trans htarget (mem_of_table? (table?_eq_some_iff_first.2 hfirst)).2
    rw [List.mem_singleton.1 hfk] at hname
    exact absurd hname (by decide +kernel)
  have hunrelated : ∀ v ∈ repeated.tables, ¬v.RefersTo ofReferring := by
    simp only [Table.not_refersTo_iff]
    decide +kernel
  have hbuilt : succeedsWith (repeated.layer {} "t") (fun _ => true) = true := by
    decide +kernel
  obtain ⟨l, hl, -⟩ := exists_of_succeedsWith hbuilt
  obtain ⟨hsame, hok⟩ := layer_insertTable (s := repeated) {} 1 (by decide +kernel) hrefers
  refine ⟨hsame fun t hfirst => ⟨hunrelated t ?_, fun owner howner _ => hunrelated owner howner⟩,
    l, hok (by decide +kernel) l hl⟩
  exact (mem_of_table? (table?_eq_some_iff_first.2 hfirst)).1

end Schema

end Overlay
