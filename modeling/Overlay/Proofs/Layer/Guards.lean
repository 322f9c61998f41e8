import Overlay.Proofs.Layer.Requirements
import Overlay.Proofs.Redirection.Run

/-!
# When dependent rows are looked up

The look-ups of dependent rows stand inside branches of a trigger (`Body.guardedChecks`). All those
of an update stand in one branch, which is taken if a column of the primary key is assigned. So the
look-up for a foreign key watches the columns of the key, and none of the other columns that the
foreign key may refer to (`Schema.update_watches_key`). The branches are those that the text of the
trigger is read as (`Schema.read_of_layer`).
-/

namespace Overlay

open Sql Text

/-! ### Look-ups inside branches -/

/-- A look-up of dependent rows with the conditions of the branches that it stands in, each with the
outcome that leads to the look-up. -/
structure GuardedCheck where
  guards : List (Condition × Bool)
  check : RowCheck
  deriving DecidableEq, Repr

namespace GuardedCheck

/-- The look-up inside a further branch. -/
def under (condition : Condition) (outcome : Bool) (c : GuardedCheck) : GuardedCheck :=
  { c with guards := (condition, outcome) :: c.guards }

/-- Each branch is taken that the look-up stands in. -/
def Reached {α : Type} (c : GuardedCheck) (f : Firing α) (σ : Session α) : Prop :=
  ∀ guard ∈ c.guards, guard.1.holds f σ = guard.2

end GuardedCheck

/-- The look-up that a condition is. -/
def Condition.guardedChecks (condition : Condition) : List GuardedCheck :=
  condition.rowCheck?.toList.map fun check => { guards := [], check }

/-- The look-ups of dependent rows in a body, in order, with the branches they stand in. -/
def Body.guardedChecks : Body → List GuardedCheck
  | done => []
  | run _ rest => rest.guardedChecks
  | guard condition yes rest =>
    condition.guardedChecks ++ yes.guardedChecks.map (.under condition true) ++ rest.guardedChecks
  | branch condition yes no rest =>
    condition.guardedChecks ++ yes.guardedChecks.map (.under condition true) ++
      no.guardedChecks.map (.under condition false) ++ rest.guardedChecks

/-- These are all look-ups of the body. -/
theorem Body.map_check_guardedChecks (body : Body) :
    body.guardedChecks.map GuardedCheck.check = body.rowChecks := by
  have hunder (condition : Condition) (outcome : Bool) :
      GuardedCheck.check ∘ GuardedCheck.under condition outcome = GuardedCheck.check := rfl
  have hcondition (condition : Condition) :
      condition.guardedChecks.map GuardedCheck.check = condition.rowCheck?.toList := by
    rw [Condition.guardedChecks, List.map_map]
    exact List.map_id _
  induction body with
  | done => rfl
  | run statement rest ih => exact ih
  | guard condition yes rest ihyes ihrest =>
    simp only [guardedChecks, rowChecks, List.map_append, List.map_map, hunder, hcondition, ihyes,
      ihrest]
  | branch condition yes no rest ihyes ihno ihrest =>
    simp only [guardedChecks, rowChecks, List.map_append, List.map_map, hunder, hcondition, ihyes,
      ihno, ihrest]

namespace Redirection

variable (r : Redirection)

theorem guardedChecks_refuseDependents (operation : Operation) (rest : Body) :
    (r.refuseDependents operation rest).guardedChecks =
      r.rowChecks.map (fun check => { guards := [], check }) ++ rest.guardedChecks := by
  have hrefusal (d : Dependent) (rest : Body) : (Body.refuseIf d.condition
      (integrityMessage d.table operation) rest).guardedChecks =
        [{ guards := [], check := { relation := d.relation, pairs := d.pairs } }] ++
          rest.guardedChecks := rfl
  rw [refuseDependents_eq_flatMap Body.guardedChecks hrefusal, rowChecks, List.map_map,
    List.map_eq_flatMap]
  rfl

/-- An update looks up the rows of each dependent, if it assigns a column of the key. -/
theorem guardedChecks_update :
    r.update.guardedChecks =
      r.rowChecks.map fun check => { guards := [(.changing r.key, true)], check } := by
  have hmove : r.moveRow.guardedChecks =
      r.rowChecks.map fun check => { guards := [], check } := by
    change (r.refuseDependents .update _).guardedChecks = _
    rw [guardedChecks_refuseDependents]
    exact List.append_nil _
  change r.moveRow.guardedChecks.map _ ++ [] ++ [] = _
  rw [hmove, List.append_nil, List.append_nil, List.map_map]
  rfl

end Redirection

/-! ### Updates that change a column -/

/-- The trigger runs for an update of a row with these columns that assigns each column it
changes. -/
structure Sql.Firing.IsUpdate {α : Type} (f : Firing α) (columns : List String) : Prop where
  old : f.old.map Prod.fst = columns
  new : f.new.map Prod.fst = columns
  assigned : ∀ c ∈ columns, f.old.get c ≠ f.new.get c → ∃ a ∈ f.assigned, sameName a c = true

/-- Every update of a row with these columns that changes `column` reaches the look-up. -/
def GuardedCheck.Watches (α : Type) (c : GuardedCheck) (columns : List String) (column : String) :
    Prop :=
  ∀ (f : Firing α) (σ : Session α), f.IsUpdate columns → f.old.get column ≠ f.new.get column →
    c.Reached f σ

section

variable {α : Type} {columns key : List String} {column : String}

/-- The update that sets one column and changes no other. -/
def Sql.Firing.setting (columns : List String) (column : String) : Firing α :=
  { old := Row.project columns [(column, .number 0)]
    new := Row.project columns [(column, .number 1)]
    assigned := [column]
    found := fun _ _ => false }

theorem Sql.Firing.isUpdate_setting : (setting columns column : Firing α).IsUpdate columns where
  old := (List.map_map ..).trans (List.map_id' columns)
  new := (List.map_map ..).trans (List.map_id' columns)
  assigned c hc hchanged := by
    refine ⟨column, List.mem_singleton_self column, ?_⟩
    by_contra hother
    refine hchanged ?_
    simp only [setting, Row.get_project ⟨c, hc, sameName_refl c⟩]
    simp [Row.get, hother]

theorem Sql.Firing.changes_setting (h : ∃ c ∈ columns, sameName c column = true) :
    (setting columns column : Firing α).old.get column ≠
      (setting columns column : Firing α).new.get column := by
  simp only [setting, Row.get_project h]
  simp [Row.get, sameName_refl]

/-- A look-up for the case that a column of the key is assigned watches the columns of the key and
no other column. -/
theorem GuardedCheck.watches_iff {check : RowCheck}
    (hcolumn : ∃ c ∈ columns, sameName c column = true) :
    ({ guards := [(.changing key, true)], check } : GuardedCheck).Watches α columns column ↔
      keyNames key column = true := by
  constructor
  · intro hwatches
    let σ : Session α := { database := fun _ => [], keyFound := false }
    have hreached := hwatches (.setting columns column) σ Firing.isUpdate_setting
      (Firing.changes_setting hcolumn)
    have hassigned := hreached _ (List.mem_singleton_self _)
    simpa [Condition.holds, Firing.setting, keyNames, sameName_comm] using hassigned
  · intro hkey f σ hupdate hchanged guard hguard
    rw [List.mem_singleton.1 hguard]
    obtain ⟨c, hc, hsame⟩ := hcolumn
    rw [← Row.get_congr hsame, ← Row.get_congr hsame] at hchanged
    obtain ⟨a, ha, hac⟩ := hupdate.assigned c hc hchanged
    obtain ⟨k, hk, hkc⟩ := List.any_eq_true.1 hkey
    rw [sameName_comm] at hkc
    exact List.any_eq_true.2
      ⟨k, hk, List.any_eq_true.2 ⟨a, ha, sameName_trans hac (sameName_trans hsame hkc)⟩⟩

end

/-! ### Accepted updates -/

namespace Redirection

variable {α : Type} [DecidableEq α] (r : Redirection) {db db' : Database α} {old new : Row α}
  {assigned : List String} {found found' : Relation → List (String × String) → Bool}

omit [DecidableEq α] in
theorem holds_changing_iff {f : Firing α} {σ : Session α} :
    (Condition.changing r.key).holds f σ = true ↔ r.AssignsKey f.assigned := by
  simp [Condition.holds, AssignsKey]

/-- An accepted update that assigns a column of the key has found no dependent rows. -/
theorem unreferenced_of_fire_update (hassign : r.AssignsKey assigned)
    (hfire : r.plan.fire found db (.update old new assigned) = .ok db') : r.Unreferenced found := by
  obtain ⟨flag, hexec⟩ := fire_eq_ok_iff.1 hfire
  change r.update.exec r.key { old, new, assigned, found } ⟨db, false⟩ = .ok ⟨db', flag⟩ at hexec
  rw [update, Body.exec_branch_done, if_pos (r.holds_changing_iff.2 hassign), moveRow, exec_findKey,
    Body.exec_refuseIf] at hexec
  split at hexec
  · cases hexec
  · exact (exec_refuseDependents_eq_ok_iff.1 hexec).1

/-- Any other update looks nothing up. -/
theorem fire_update_congr (hassign : ¬r.AssignsKey assigned) :
    r.plan.fire found db (.update old new assigned) =
      r.plan.fire found' db (.update old new assigned) := by
  have hwrite (found : Relation → List (String × String) → Bool) :
      (r.plan.trigger (.update old new assigned)).exec r.key
          ((Event.update old new assigned).firing found) ⟨db, false⟩ =
        (r.write .upsert .new .updated).exec r.key
          { old := [], new, assigned := [], found := fun _ _ => false } ⟨db, false⟩ := by
    change r.update.exec r.key { old, new, assigned, found } ⟨db, false⟩ = _
    rw [update, Body.exec_branch_done, if_neg (mt r.holds_changing_iff.1 hassign),
      Body.exec_run_done]
    rfl
  change (_ >>= _) = (_ >>= _)
  exact congrArg (· >>= _) ((hwrite found).trans (hwrite found').symm)

end Redirection

/-! ### Layers -/

/-- A look-up of an update trigger for a foreign key that points at `t`. It watches exactly those of
the columns referred to that the primary key names. -/
structure GuardedCheck.ChecksKey (α : Type) (c : GuardedCheck) (key : List String)
    (t owner : Table) (fk : ForeignKey) : Prop where
  covers : c.check.Covers t owner fk
  guards : c.guards = [(.changing key, true)]
  watches : ∀ column ∈ fk.targetColumns,
    c.Watches α t.columnNames column ↔ keyNames key column = true

theorem RowCheck.Covers.hasColumn_of_mem_targetColumns {c : RowCheck} {t owner : Table}
    {fk : ForeignKey} (h : c.Covers t owner fk) {column : String}
    (hcolumn : column ∈ fk.targetColumns) : t.HasColumn column := by
  rw [← h.targetColumns] at hcolumn
  obtain ⟨pair, hpair, rfl⟩ := List.mem_map.1 hcolumn
  exact (h.hasColumn pair hpair).2

/-- The update trigger has such a look-up for each foreign key that points at the table. -/
theorem Table.Redirectable.checksKey {s : Schema} {t : Table} {name : String}
    (h : t.Redirectable s) (hfirst : s.First name t) (α : Type) (config : Config)
    (key : List String) :
    List.Forall₂
      (fun (reference : Table × ForeignKey) c =>
        c.ChecksKey α key t reference.1 reference.2)
      (s.referencing t.name) (t.redirection config s key).update.guardedChecks := by
  have hcovers := (h.covers hfirst (t.redirection config s key).rowChecks_update).rowChecks
  rw [Redirection.rowChecks_update] at hcovers
  rw [Redirection.guardedChecks_update, List.forall₂_map_right_iff]
  refine hcovers.imp fun reference check hcheck => ⟨hcheck, rfl, fun column hcolumn => ?_⟩
  obtain ⟨c, hc, hname⟩ := hcheck.hasColumn_of_mem_targetColumns hcolumn
  exact GuardedCheck.watches_iff ⟨c.name, List.mem_map_of_mem hc, hname⟩

/-- The update trigger of a layer has one look-up for each foreign key that points at the table,
made if a column of the primary key is assigned: so it is made in every update that changes a
column referred to, if and only if the primary key names this column. An accepted update that
assigns a column of the key has found no dependent rows, and what comes of any other update does not
depend on them. -/
theorem Schema.update_watches_key {α : Type} [DecidableEq α] {s : Schema} {config : Config}
    {name : String} {t : Table} {l : Layer Plan} (hfirst : s.First name t)
    (hl : s.layer config name = .ok l) :
    List.Forall₂
        (fun (reference : Table × ForeignKey) c =>
          c.ChecksKey α l.primaryKey t reference.1 reference.2)
        (s.referencing t.name) l.plan.update.guardedChecks ∧
      ∀ (found : Relation → List (String × String) → Bool) (db : Database α) (old new : Row α)
        (assigned : List String),
        ((∃ k ∈ l.primaryKey, ∃ a ∈ assigned, sameName a k = true) →
            ∀ db', l.plan.fire found db (.update old new assigned) = .ok db' →
              ∀ c ∈ l.plan.update.guardedChecks,
                found c.check.relation c.check.pairs = false) ∧
          ((¬∃ k ∈ l.primaryKey, ∃ a ∈ assigned, sameName a k = true) →
            ∀ found', l.plan.fire found' db (.update old new assigned) =
              l.plan.fire found db (.update old new assigned)) := by
  obtain ⟨t', key, hfirst', -, hredirectable, rfl⟩ := layer_eq_ok_iff_redirectable.1 hl
  obtain rfl : t' = t := hfirst'.unique hfirst
  let r := t'.redirection config s key
  refine ⟨hredirectable.checksKey hfirst α config key, fun found db old new assigned =>
    ⟨fun hassign db' hfire c hc => ?_, fun hassign found' => r.fire_update_congr hassign⟩⟩
  have hmem : c.check ∈ r.update.rowChecks := by
    rw [← Body.map_check_guardedChecks]
    exact List.mem_map_of_mem hc
  rw [Redirection.rowChecks_update] at hmem
  obtain ⟨d, hd, hcheck⟩ := List.mem_map.1 hmem
  rw [← hcheck]
  exact r.unreferenced_of_fire_update hassign hfire d hd

/-! ### An example -/

namespace Referred

/-- A table whose key does not have its second column. -/
def table : Table :=
  { name := "t"
    columns :=
      [{ name := "id", type := .integer, nullable := false },
        { name := "code", type := .integer, nullable := true }]
    primaryKey := some ["id"]
    foreignKeys := [] }

/-- A reference to the column of the key. -/
def byId : ForeignKey :=
  { columns := ["r"], target := "t", targetColumns := ["id"] }

/-- A reference to the other column. -/
def byCode : ForeignKey :=
  { columns := ["q"], target := "t", targetColumns := ["code"] }

/-- A table that refers to both columns. -/
def owner : Table :=
  { name := "d"
    columns :=
      [{ name := "k", type := .integer, nullable := false },
        { name := "r", type := .integer, nullable := true },
        { name := "q", type := .integer, nullable := true }]
    primaryKey := some ["k"]
    foreignKeys := [byId, byCode] }

/-- The schema of the two tables. -/
def schema : Schema :=
  { name := "s", tables := [table, owner] }

/-- The layer of the table that is referred to. -/
def layer : Layer Plan :=
  table.layer {} schema ["id"]

theorem first_table : schema.First "t" table :=
  Schema.table?_eq_some_iff_first.1 (by decide +kernel)

theorem layer_eq_ok : schema.layer {} "t" = .ok layer := by
  decide +kernel

theorem referencing_eq : schema.referencing table.name = [(owner, byId), (owner, byCode)] := by
  decide +kernel

/-- The look-up of the rows whose `column` refers to `target`. -/
def lookUp (column target : String) : GuardedCheck :=
  { guards := [(.changing ["id"], true)]
    check := { relation := { schema := "base", name := "d" }, pairs := [(column, target)] } }

theorem guardedChecks_eq :
    layer.plan.update.guardedChecks = [lookUp "r" "id", lookUp "q" "code"] := by
  decide +kernel

/-- A row of the table. -/
def row (id code : Nat) : Row String :=
  [("id", .number id), ("code", .number code)]

/-- A database in which a row of the other table refers to the code 5. -/
def start : Database String :=
  Database.put (Database.put (fun _ => []) layer.plan.select.base [row 1 5])
    { schema := "base", name := "d" } [[("k", .number 7), ("r", .null), ("q", .number 5)]]

/-- Whether there are rows that refer to a row. -/
def finds (old : Row String) (relation : Relation) (pairs : List (String × String)) : Bool :=
  (start.rows relation).any fun o => pairs.all fun (column, target) =>
    (o.get column).equals (old.get target)

end Referred

theorem Schema.update_watches_key_referred :
    Referred.layer.plan.update.guardedChecks =
        [Referred.lookUp "r" "id", Referred.lookUp "q" "code"] ∧
      (Referred.lookUp "r" "id").Watches String Referred.table.columnNames "id" ∧
        ¬(Referred.lookUp "q" "code").Watches String Referred.table.columnNames "code" := by
  obtain ⟨hchecks, -⟩ :=
    @update_watches_key String _ _ _ _ _ _ Referred.first_table Referred.layer_eq_ok
  rw [Referred.referencing_eq, Referred.guardedChecks_eq, List.forall₂_cons, List.forall₂_cons]
    at hchecks
  obtain ⟨hid, hcode, -⟩ := hchecks
  have hwatches := (hid.watches "id" (by decide)).2 (by decide +kernel)
  have hkey : ¬keyNames Referred.layer.primaryKey "code" = true := by decide +kernel
  exact ⟨Referred.guardedChecks_eq, hwatches, mt (hcode.watches "code" (by decide)).1 hkey⟩

/-- An update may change a column that another table refers to without looking its rows up, and is
then accepted although there are rows with the old value. -/
theorem exists_unwatched_change :
    Referred.schema.validate = .ok () ∧ Referred.schema.layer {} "t" = .ok Referred.layer ∧
      (Referred.owner, Referred.byCode) ∈ Referred.schema.referencing "t" ∧
        "code" ∈ Referred.byCode.targetColumns ∧
          ∃ c ∈ Referred.layer.plan.update.guardedChecks,
            c.check.Covers Referred.table Referred.owner Referred.byCode ∧
              ¬c.Watches String Referred.table.columnNames "code" ∧
                Referred.layer.plan.Concerns Referred.start
                  (.update (Referred.row 1 5) (Referred.row 1 6) ["code"]) ∧
                  Referred.finds (Referred.row 1 5) c.check.relation c.check.pairs = true ∧
                    ∃ db, Referred.layer.plan.fire (Referred.finds (Referred.row 1 5))
                        Referred.start
                        (.update (Referred.row 1 5) (Referred.row 1 6) ["code"]) = .ok db ∧
                      Referred.layer.plan.view db = [Referred.row 1 6] := by
  obtain ⟨t, key, hfirst, -, hredirectable, -⟩ :=
    Schema.layer_eq_ok_iff_redirectable.1 Referred.layer_eq_ok
  obtain rfl : t = Referred.table := hfirst.unique Referred.first_table
  have hchecks : List.Forall₂ _ _ Referred.layer.plan.update.guardedChecks :=
    hredirectable.checksKey hfirst String {} ["id"]
  rw [Referred.referencing_eq, Referred.guardedChecks_eq, List.forall₂_cons, List.forall₂_cons]
    at hchecks
  obtain ⟨-, hcode, -⟩ := hchecks
  have hkey : ¬keyNames ["id"] "code" = true := by decide +kernel
  have hconcerns : Referred.layer.plan.Concerns Referred.start
      (.update (Referred.row 1 5) (Referred.row 1 6) ["code"]) :=
    ⟨by decide +kernel, rfl, by decide +kernel⟩
  obtain ⟨db, hfire, hview⟩ := exists_of_succeedsWith
    (show succeedsWith (Referred.layer.plan.fire (Referred.finds (Referred.row 1 5)) Referred.start
        (.update (Referred.row 1 5) (Referred.row 1 6) ["code"]))
        (fun db => Referred.layer.plan.view db = [Referred.row 1 6]) = true by decide +kernel)
  refine ⟨by decide +kernel, Referred.layer_eq_ok, by decide +kernel, by decide,
    Referred.lookUp "q" "code", by simp [Referred.guardedChecks_eq], hcode.covers,
    mt (hcode.watches "code" (by decide)).1 hkey, hconcerns, by decide +kernel, db, hfire,
    of_decide_eq_true hview⟩

end Overlay
