import Overlay.Proofs.Layer.Build
import Overlay.Proofs.Redirection.Trigger

/-!
# Runs against the view

Whatever operations are made on the view, the base relation stays as it is and the shadow relation
holds entries (`Redirection.Regular.exists_holds_of_run`). As long as no update changes the key of
its row, the view shows what the accepted operations would have made of the base table itself: each
step takes the view to the result of the operation on a plain table
(`Redirection.Regular.view_perm_apply`).
-/

namespace Overlay

open Sql Text

/-! ### Plain tables -/

section

variable {α : Type} [DecidableEq α] {columns key : List String} {rows rows' : List (Row α)}
  {old : Row α}

theorem Event.apply_perm (h : rows.Perm rows') (e : Event α) :
    (e.apply rows).Perm (e.apply rows') := by
  cases e with
  | insert new => exact h.append_right _
  | update old new assigned => exact h.map _
  | delete old => exact h.filter _

theorem perm_map_replace (h : rows.Nodup) (hold : old ∈ rows) (new : Row α) :
    ((rows.filter fun r => r ≠ old) ++ [new]).Perm
      (rows.map fun r => if r = old then new else r) := by
  obtain ⟨before, after, rfl⟩ := List.append_of_mem hold
  obtain ⟨hnotMem, -⟩ := List.nodup_cons.1 (List.nodup_middle.1 h)
  obtain ⟨hbefore, hafter⟩ := not_or.1 (List.mem_append.not.1 hnotMem)
  have hne (l : List (Row α)) (hl : old ∉ l) : (l.filter fun r => r ≠ old) = l :=
    List.filter_eq_self.2 fun r hr => decide_eq_true (ne_of_mem_of_not_mem hr hl)
  have hmap (l : List (Row α)) (hl : old ∉ l) : (l.map fun r => if r = old then new else r) = l :=
    (List.map_congr_left fun r hr => if_neg (ne_of_mem_of_not_mem hr hl)).trans (List.map_id' l)
  simp only [List.filter_append, List.filter_cons, List.map_append, List.map_cons, hne _ hbefore,
    hne _ hafter, hmap _ hbefore, hmap _ hafter, ne_eq, not_true_eq_false, decide_false,
    Bool.false_eq_true, if_false, if_true]
  rw [List.append_assoc]
  exact (List.perm_append_singleton new after).append_left before

theorem Sql.KeyedRows.filter_key_ne (h : KeyedRows columns key rows) (hold : old ∈ rows) :
    (rows.filter fun r => r.key key ≠ old.key key) = rows.filter fun r => r ≠ old := by
  refine List.filter_congr fun r hr => decide_eq_decide.2 (not_congr ?_)
  exact ⟨h.eq_of_key hr hold, congrArg _⟩

end

/-! ### Steps -/

namespace Redirection

section

variable {α : Type} [DecidableEq α] {r : Redirection} {db db' : Database α}
  {entries : List (Entry α)} {row old new : Row α} {status : RowStatus} {assigned : List String}
  {e : Event α} {found : Relation → List (String × String) → Bool} (hr : r.Regular)

include hr

/-- An update on rows with the columns of the table that assigns no column of the key keeps it. -/
theorem Regular.key_eq_of_not_assignsKey
    (hassigned : ∀ c ∈ r.columns, old.get c ≠ new.get c → ∃ a ∈ assigned, sameName a c = true)
    (h : ¬r.AssignsKey assigned) : old.key r.key = new.key r.key := by
  refine List.map_congr_left fun k hk => ?_
  obtain ⟨c, hc, hsame⟩ := hr.key k hk
  rw [← Row.get_congr hsame, ← Row.get_congr hsame]
  by_contra hne
  obtain ⟨a, ha, hac⟩ := hassigned c hc hne
  exact h ⟨k, hk, a, ha, sameName_trans hac hsame⟩

variable (hbase : KeyedRows r.columns r.key (db.rows r.base)) (h : r.Holds db entries)

include hbase h

theorem Regular.keyedRows_view : KeyedRows r.columns r.key (r.plan.view db) := by
  rw [hr.view_eq_merge hbase h]
  exact Entry.keyedRows_merge hbase h.keyed

/-- Writing an entry takes the row with its key out of the view and, unless it is a deletion, puts
its image into the view. -/
theorem Regular.view_store_put (hcolumns : row.map Prod.fst = r.columns) (hkey : row.HasKey r.key) :
    r.plan.view (r.store db (Entry.put r.key entries ⟨row, status⟩)) =
      ((r.plan.view db).filter fun o => o.key r.key ≠ row.key r.key) ++
        if status = .deleted then [] else [row] := by
  have hbase' : KeyedRows r.columns r.key
      ((r.store db (Entry.put r.key entries ⟨row, status⟩)).rows r.base) := by
    rw [hr.base_store]
    exact hbase
  rw [hr.view_eq_merge hbase' (holds_put h hcolumns hkey), hr.base_store, Entry.merge_put,
    hr.view_eq_merge hbase h]

/-- Moving a row takes the rows with its old and its new key out of the view and puts its new image
into the view. -/
theorem Regular.view_move (hold : old.map Prod.fst = r.columns) (hkey : old.HasKey r.key)
    (hnew : new.map Prod.fst = r.columns) (hkey' : new.HasKey r.key) :
    r.plan.view (r.move db entries old new) =
      ((r.plan.view db).filter fun o => o.key r.key ≠ old.key r.key).filter
          (fun o => o.key r.key ≠ new.key r.key) ++ [new] := by
  have hbase' : KeyedRows r.columns r.key
      ((r.store db (Entry.put r.key entries ⟨old, .deleted⟩)).rows r.base) := by
    rw [hr.base_store]
    exact hbase
  refine (hr.view_store_put hbase' (holds_put h hold hkey) hnew hkey').trans ?_
  rw [hr.view_store_put hbase h hold hkey]
  simp

/-- An accepted operation leaves the base relation as it is and the shadow relation with
entries. -/
theorem Regular.exists_holds_of_fire (he : r.plan.Concerns db e)
    (hfire : r.plan.fire found db e = .ok db') :
    db'.rows r.base = db.rows r.base ∧ ∃ entries', r.Holds db' entries' := by
  have hview := hr.keyedRows_view hbase h
  cases e with
  | insert new =>
    obtain ⟨hkey, -, -, rfl⟩ := (hr.fire_insert_eq_ok_iff h).1 hfire
    exact ⟨hr.base_store, _, holds_put h he hkey⟩
  | delete old =>
    obtain ⟨-, hkey, rfl⟩ := (hr.fire_delete_eq_ok_iff h).1 hfire
    exact ⟨hr.base_store, _, holds_put h (hview.columns old he) hkey⟩
  | update old new assigned =>
    obtain ⟨hold, hnew, -⟩ := he
    have hcolumns := hview.columns old hold
    by_cases hassign : r.AssignsKey assigned
    · obtain ⟨-, -, hkey, hkey', rfl⟩ :=
        (hr.fire_update_eq_ok_iff_of_assignsKey h hcolumns hassign).1 hfire
      exact ⟨hr.base_store.trans hr.base_store, _, holds_put (holds_put h hcolumns hkey) hnew hkey'⟩
    · obtain ⟨hkey, rfl⟩ := (hr.fire_update_eq_ok_iff_of_not_assignsKey h hassign).1 hfire
      exact ⟨hr.base_store, _, holds_put h hnew hkey⟩

/-- An accepted operation that keeps keys changes the view like a plain table. -/
theorem Regular.view_perm_apply (he : r.plan.Concerns db e) (hkeeps : e.KeepsKey r.key)
    (hfire : r.plan.fire found db e = .ok db') :
    (r.plan.view db').Perm (e.apply (r.plan.view db)) := by
  have hview := hr.keyedRows_view hbase h
  cases e with
  | insert new =>
    obtain ⟨hkey, hnotBase, hnew, rfl⟩ := (hr.fire_insert_eq_ok_iff h).1 hfire
    -- The key is in neither relation, so that nothing is taken out of the view.
    have hother : ((r.plan.view db).filter fun o => o.key r.key ≠ new.key r.key) =
        r.plan.view db := by
      refine List.filter_eq_self.2 fun o ho => decide_eq_true fun heq => ?_
      rw [hr.view_eq_merge hbase h, Entry.merge, List.mem_append] at ho
      rcases ho with ho | ho
      · exact hnotBase ⟨hkey, o, List.mem_of_mem_filter ho, heq⟩
      · obtain ⟨e, he, -, rfl⟩ := Entry.mem_visible.1 ho
        exact hnew e he heq
    rw [hr.view_store_put hbase h he hkey, hother]
    exact List.Perm.refl _
  | delete old =>
    obtain ⟨-, hkey, rfl⟩ := (hr.fire_delete_eq_ok_iff h).1 hfire
    rw [hr.view_store_put hbase h (hview.columns old he) hkey, hview.filter_key_ne he]
    simp [Event.apply]
  | update old new assigned =>
    obtain ⟨hold, hnew, hassigned⟩ := he
    have hkeys : old.key r.key = new.key r.key := hkeeps
    have hcolumns := hview.columns old hold
    have hperm := perm_map_replace hview.nodup hold new
    -- An update may assign the key its old value, and then goes through the branch for moves.
    by_cases hassign : r.AssignsKey assigned
    · obtain ⟨-, -, hkey, hkey', rfl⟩ :=
        (hr.fire_update_eq_ok_iff_of_assignsKey h hcolumns hassign).1 hfire
      rw [hr.view_move hbase h hcolumns hkey hnew hkey', ← hkeys, List.filter_filter]
      simp only [Bool.and_self, hview.filter_key_ne hold]
      exact hperm
    · obtain ⟨hkey, rfl⟩ := (hr.fire_update_eq_ok_iff_of_not_assignsKey h hassign).1 hfire
      rw [hr.view_store_put hbase h hnew hkey, ← hkeys, hview.filter_key_ne hold]
      exact hperm

end

/-! ### Runs -/

section

variable {α : Type} [DecidableEq α] {r : Redirection} {start db : Database α}
  {events : List (Event α)} {allowed : Event α → Prop} (hr : r.Regular)
  (hfresh : r.plan.Fresh start)

include hr hfresh

/-- Operations leave the base relation as it is and the shadow relation with entries. -/
theorem Regular.exists_holds_of_run (hrun : r.plan.Run allowed start db events) :
    db.rows r.base = start.rows r.base ∧ ∃ entries, r.Holds db entries := by
  induction hrun with
  | start => exact ⟨rfl, [], hfresh.shadow, .nil⟩
  | accepted _ _ he hfire ih =>
    obtain ⟨hbase, entries, hholds⟩ := ih
    have hkeyed := hbase ▸ hfresh.base
    obtain ⟨hbase', hholds'⟩ := hr.exists_holds_of_fire hkeyed hholds he hfire
    exact ⟨hbase'.trans hbase, hholds'⟩
  | refused _ _ _ _ ih => exact ih

/-- The base relation stays a table with the key. -/
theorem Regular.keyedRows_base_of_run (hrun : r.plan.Run allowed start db events) :
    KeyedRows r.columns r.key (db.rows r.base) := by
  rw [(hr.exists_holds_of_run hfresh hrun).1]
  exact hfresh.base

/-- The view shows what the accepted operations make of the base table. -/
theorem Regular.view_perm_of_run (hrun : r.plan.Run (Event.KeepsKey r.key) start db events) :
    (r.plan.view db).Perm (events.foldl Event.apply (start.rows r.base)) := by
  induction hrun with
  | start =>
    have hholds : r.Holds start [] := ⟨hfresh.shadow, .nil⟩
    rw [hr.view_eq_merge hfresh.base hholds]
    simp [Entry.merge, Entry.visible]
  | accepted hrun hkeeps he hfire ih =>
    obtain ⟨-, entries, hholds⟩ := hr.exists_holds_of_run hfresh hrun
    have hbase := hr.keyedRows_base_of_run hfresh hrun
    rw [List.foldl_append]
    exact (hr.view_perm_apply hbase hholds he hkeeps hfire).trans (Event.apply_perm ih _)
  | refused _ _ _ _ ih => exact ih

end

end Redirection

/-! ### Layers -/

theorem shadowName_folded_ne (schema schema' name : String) :
    Relation.folded ⟨schema, name⟩ ≠ Relation.folded ⟨schema', shadowName name⟩ := by
  intro h
  have hlength : (name.map Char.toLower).length = ((shadowName name).map Char.toLower).length :=
    congrArg (fun pair => pair.2.length) h
  rw [String.length_map, String.length_map, shadowName, String.length_append] at hlength
  have hsuffix : "_REDIRECTED".length = 11 := by decide
  omega

/-- A table is redirected regularly if its columns are pairwise different, none is the status column
and the key names columns. -/
theorem Table.regular_redirection {t : Table} {key : List String}
    (hkey : ∀ k ∈ key, ∃ c, t.column? k = some c)
    (hdistinct : t.columnNames.Pairwise fun c c' => sameName c c' = false)
    (hstatus : ∀ c ∈ t.columns, sameName c.name statusColumn = false) (config : Config)
    (s : Schema) : (t.redirection config s key).Regular := by
  refine ⟨hdistinct, List.forall_mem_map.2 hstatus, fun k hk => ?_, ?_⟩
  · obtain ⟨c, hc⟩ := hkey k hk
    obtain ⟨hmem, hsame⟩ := Table.mem_of_column? hc
    exact ⟨c.name, List.mem_map_of_mem hmem, hsame⟩
  · exact shadowName_folded_ne s.name config.redirectedSchema t.name

/-- The layer of a table of `s` is made for the redirection. -/
structure Redirection.IsFor (r : Redirection) (s : Schema) (l : Layer Plan) : Prop where
  plan : l.plan = r.plan
  key : l.primaryKey = r.key
  columns : l.columns.map Column.name = r.columns
  base : r.base = ⟨s.name, l.name⟩
  shadow : r.shadow = ⟨l.redirectedSchema, l.shadow.name⟩

/-- The layer of a table is made for a regular redirection, if the columns of the table are pairwise
different and none is the status column. -/
theorem exists_regular_of_layer {s : Schema} {config : Config} {name : String} {l : Layer Plan}
    (hl : s.layer config name = .ok l)
    (hdistinct : (l.columns.map Column.name).Pairwise fun c c' => sameName c c' = false)
    (hstatus : ∀ c ∈ l.columns, sameName c.name statusColumn = false) :
    ∃ r : Redirection, r.Regular ∧ r.IsFor s l := by
  obtain ⟨t, key, -, hkey, hkeyed, -, rfl⟩ := Schema.layer_eq_ok_iff.1 hl
  have hcolumns : ∀ k ∈ key, ∃ c, t.column? k = some c := fun k hk =>
    have ⟨c, hc, _⟩ := (hkeyed.primaryKey key (Table.rowKey?_eq_some_iff.1 hkey).1).2 k hk
    ⟨c, hc⟩
  exact ⟨t.redirection config s key, Table.regular_redirection hcolumns hdistinct hstatus config s,
    ⟨rfl, rfl, rfl, rfl, rfl⟩⟩

/-! ### An example -/

namespace Person

/-- A table of persons. -/
def table : Table :=
  { name := "person"
    columns :=
      [{ name := "id", type := .integer, nullable := false },
        { name := "name", type := .string, nullable := true }]
    primaryKey := some ["id"]
    foreignKeys := [] }

/-- The schema of persons. -/
def schema : Schema :=
  { name := "internal", tables := [table] }

/-- The layer of the table of persons. -/
def layer : Layer Plan :=
  table.layer {} schema ["id"]

theorem layer_eq_ok : schema.layer {} "person" = .ok layer := by
  decide +kernel

/-- A row of the table. -/
def row (id : Nat) (name : String) : Row String :=
  [("id", .number id), ("name", .other name)]

/-- A database with a person. -/
def start : Database String :=
  Database.put (fun _ => []) layer.plan.select.base [row 1 "Ann"]

/-- Nothing refers to a person. -/
def unreferenced : Relation → List (String × String) → Bool :=
  fun _ _ => false

theorem fresh_start : layer.plan.Fresh start :=
  ⟨⟨by decide +kernel, by decide +kernel, by decide +kernel⟩, by decide +kernel⟩

end Person

end Overlay
