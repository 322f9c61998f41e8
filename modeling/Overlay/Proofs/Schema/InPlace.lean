import Overlay.Proofs.Schema.Reference

/-!
# Resolving a schema in place

A schema that is kept in a variable is resolved in two passes (`Schema.resolveInPlace`). The first
looks up the columns of each reference that leaves them out, and notes them with the position of the
reference (`Filling`); the second writes what was noted. Only the first pass can fail, so that a
failure leaves the variable as it was, and what is written is the resolved schema
(`Schema.run_resolveInPlace`).
-/

namespace Overlay

/-- Columns to be written into a foreign key, by the positions of its table and of the key in it. -/
structure Filling where
  table : Nat
  foreignKey : Nat
  columns : List String
  deriving DecidableEq, Repr

/-- What is to be written into the foreign keys of the table at position `i`: the columns of those
that leave them out. -/
def Table.fillings (s : Schema) (t : Table) (i : Nat) : Except Error (List Filling) :=
  (t.foreignKeys.zipIdx.filter fun (fk, _) => fk.targetColumns.isEmpty).mapM fun (fk, j) => do
    let resolved ← fk.resolve s t.name
    .ok { table := i, foreignKey := j, columns := resolved.targetColumns }

/-- What is to be written into the foreign keys of all tables. -/
def Schema.fillings (s : Schema) : Except Error (List Filling) := do
  let fillings ← s.tables.zipIdx.mapM fun (t, i) => t.fillings s i
  .ok fillings.flatten

/-- The foreign key with these target columns. -/
def ForeignKey.fill (columns : List String) (fk : ForeignKey) : ForeignKey :=
  { fk with targetColumns := columns }

/-- The table with these target columns in the foreign key at position `j`. -/
def Table.fill (j : Nat) (columns : List String) (t : Table) : Table :=
  { t with foreignKeys := t.foreignKeys.modify j (ForeignKey.fill columns) }

/-- The schema with the columns written at their position. -/
def Schema.fill (s : Schema) (filling : Filling) : Schema :=
  { s with tables := s.tables.modify filling.table (Table.fill filling.foreignKey filling.columns) }

/-- Resolves the foreign keys of a schema that is kept in a variable. -/
def Schema.resolveInPlace : EStateM Error Schema Unit := do
  let s ← get
  let fillings ← MonadExcept.ofExcept s.fillings
  fillings.forM fun filling => modify fun s => s.fill filling

/-! ### Sequences of steps -/

section

variable {α β γ ε σ : Type}

/-- Two sequences fail with the same error if their steps do; the first leaves out steps that
succeed in the second. -/
theorem mapM_filter_eq_error_iff {p : α → Bool} {f : α → Except ε β} {g : α → Except ε γ}
    {l : List α} {e : ε} (hsame : ∀ a ∈ l, p a = true → ∀ e, f a = .error e ↔ g a = .error e)
    (hok : ∀ a ∈ l, p a = false → ∃ c, g a = .ok c) :
    (l.filter p).mapM f = .error e ↔ l.mapM g = .error e := by
  induction l with
  | nil => simp [pure, Except.pure]
  | cons a l ih =>
    obtain ⟨hsame, hsames⟩ := List.forall_mem_cons.1 hsame
    obtain ⟨hok, hoks⟩ := List.forall_mem_cons.1 hok
    rw [List.filter_cons, mapM_cons_eq_error_iff, ← ih hsames hoks]
    by_cases ha : p a = true
    · rw [if_pos ha, mapM_cons_eq_error_iff, hsame ha]
      -- Either step succeeds if it does not fail, and the results do not matter.
      cases hf : f a with
      | error e' => simp [(hsame ha e').1 hf]
      | ok b =>
        cases hg : g a with
        | error e' => cases hf.symm.trans ((hsame ha e').2 hg)
        | ok c => simp
    · obtain ⟨c, hc⟩ := hok (by simpa using ha)
      simp [ha, hc]

theorem mapM_zipIdx (f : α → Except ε β) (l : List α) :
    (l.zipIdx.mapM fun p => f p.1) = l.mapM f :=
  calc
    (l.zipIdx.mapM fun p => f p.1) = (l.zipIdx.map Prod.fst).mapM f := List.mapM_map.symm
    _ = l.mapM f := by rw [List.zipIdx_map_fst]

theorem run_forM_modify (f : σ → α → σ) (l : List α) (s : σ) :
    (l.forM fun a => modify fun s => f s a : EStateM ε σ Unit).run s = .ok () (l.foldl f s) := by
  induction l generalizing s with
  | nil => rfl
  | cons a l ih => exact ih (f s a)

/-- Each item of a list is rewritten at its own position. -/
theorem foldl_modify_zipIdx (f : α → α → α) (l : List α) :
    l.zipIdx.foldl (fun acc p => acc.modify p.2 (f p.1)) l = l.map fun a => f a a := by
  have hrest (before : List α) : (l.zipIdx before.length).foldl
      (fun acc p => acc.modify p.2 (f p.1)) (before ++ l) = before ++ l.map fun a => f a a := by
    induction l generalizing before with
    | nil => simp
    | cons a l ih =>
      have hmodify : (before ++ a :: l).modify before.length (f a) = (before ++ [f a a]) ++ l := by
        simp [List.modify_eq_take_cons_drop]
      rw [List.zipIdx_cons, List.foldl_cons, hmodify, List.map_cons, List.append_cons]
      simpa using ih (before ++ [f a a])
  exact hrest []

end

/-! ### The first pass -/

/-- What is written for a table, if all its references say what they mean. -/
def Table.resolvedFillings (s : Schema) (t : Table) (i : Nat) : List Filling :=
  (t.foreignKeys.zipIdx.filter fun (fk, _) => fk.targetColumns.isEmpty).map fun (fk, j) =>
    { table := i, foreignKey := j, columns := (fk.resolved s).targetColumns }

section

variable {s : Schema} {t : Table} {i : Nat} {e : Error} {written : List Filling}

theorem Table.resolvable_iff_forall_zipIdx :
    t.Resolvable s ↔ ∀ p ∈ t.foreignKeys.zipIdx.filter fun (fk, _) => fk.targetColumns.isEmpty,
      (s.targetColumns? p.1).isSome := by
  constructor
  · intro h p hp
    exact h p.1 (List.fst_mem_of_mem_zipIdx (List.mem_of_mem_filter hp))
  · intro h fk hfk
    by_cases hempty : fk.targetColumns = []
    · rw [← List.zipIdx_map_fst 0 t.foreignKeys] at hfk
      obtain ⟨p, hp, rfl⟩ := List.mem_map.1 hfk
      exact h p (List.mem_filter.2 ⟨hp, by simp [hempty]⟩)
    · simp [Schema.targetColumns?, hempty]

theorem Table.fillings_eq_ok_iff :
    t.fillings s i = .ok written ↔ t.Resolvable s ∧ written = t.resolvedFillings s i := by
  rw [resolvable_iff_forall_zipIdx]
  refine mapM_eq_ok_iff_eq_map fun p _ filling => ?_
  simp only [bind_eq_ok_iff, ForeignKey.resolve_eq_ok_iff, Except.ok.injEq]
  constructor
  · rintro ⟨_, ⟨hsome, rfl⟩, rfl⟩
    exact ⟨hsome, rfl⟩
  · rintro ⟨hsome, rfl⟩
    exact ⟨_, ⟨hsome, rfl⟩, rfl⟩

theorem Schema.fillings_eq_ok_iff :
    s.fillings = .ok written ↔
      s.Resolvable ∧ written = s.tables.zipIdx.flatMap fun p => p.1.resolvedFillings s p.2 := by
  have hresolvable : s.Resolvable ↔ ∀ p ∈ s.tables.zipIdx, p.1.Resolvable s := by
    rw [Resolvable, ← List.zipIdx_map_fst 0 s.tables, List.forall_mem_map]
    simp only [List.zipIdx_map_fst]
  rw [fillings, bind_eq_ok_iff, hresolvable]
  simp only [mapM_eq_ok_iff_eq_map fun p _ _ => Table.fillings_eq_ok_iff, Except.ok.injEq]
  constructor
  · rintro ⟨_, ⟨h, rfl⟩, rfl⟩
    exact ⟨h, rfl⟩
  · rintro ⟨h, rfl⟩
    exact ⟨_, ⟨h, rfl⟩, rfl⟩

theorem Table.fillings_eq_error_iff : t.fillings s i = .error e ↔ t.resolve s = .error e := by
  rw [resolve, bind_ok_eq_error_iff, ← mapM_zipIdx]
  refine mapM_filter_eq_error_iff (fun p _ _ e => bind_ok_eq_error_iff) fun p _ hempty => ?_
  refine ⟨p.1, ?_⟩
  rw [ForeignKey.resolve, if_neg (by simpa using hempty)]

theorem Schema.fillings_eq_error_iff : s.fillings = .error e ↔ s.resolve = .error e := by
  have hsame := mapM_filter_eq_error_iff (p := fun _ => true) (l := s.tables.zipIdx) (e := e)
    (f := fun p => p.1.fillings s p.2) (g := fun p => p.1.resolve s)
    (fun p _ _ e => Table.fillings_eq_error_iff) (by simp)
  rw [List.filter_true, mapM_zipIdx] at hsame
  rwa [fillings, bind_ok_eq_error_iff, resolve, bind_ok_eq_error_iff]

end

/-! ### The second pass -/

section

variable {s : Schema}

/-- What the second pass makes of `fk'`, if it stands where the first pass saw `fk`. -/
def ForeignKey.refill (s : Schema) (fk fk' : ForeignKey) : ForeignKey :=
  if fk.targetColumns.isEmpty then fk'.fill (fk.resolved s).targetColumns else fk'

/-- What the second pass makes of `t'`, if it stands where the first pass saw `t`. -/
def Table.refill (s : Schema) (t t' : Table) : Table :=
  { t' with
    foreignKeys := t.foreignKeys.zipIdx.foldl (fun fks p => fks.modify p.2 (p.1.refill s))
      t'.foreignKeys }

theorem ForeignKey.refill_self (fk : ForeignKey) : fk.refill s fk = fk.resolved s := by
  by_cases hempty : fk.targetColumns = []
  · simp [refill, fill, resolved, hempty]
  · simp [refill, resolved, Schema.targetColumns?, hempty]

theorem Table.refill_self (t : Table) : t.refill s t = t.resolved s := by
  rw [refill, foldl_modify_zipIdx (ForeignKey.refill s)]
  simp only [ForeignKey.refill_self]
  rfl

/-- Writing the columns of one table rewrites this table only. -/
theorem Schema.foldl_fill_resolvedFillings (t : Table) (i : Nat) (s' : Schema) :
    (t.resolvedFillings s i).foldl fill s' =
      { s' with tables := s'.tables.modify i (t.refill s) } := by
  unfold Table.resolvedFillings Table.refill
  rw [List.foldl_map, List.foldl_filter]
  generalize t.foreignKeys.zipIdx = ps
  induction ps generalizing s' with
  | nil => exact congrArg (Schema.mk s'.name) (List.modify_id i s'.tables).symm
  | cons p ps ih =>
    rw [List.foldl_cons, ih]
    by_cases hempty : p.1.targetColumns.isEmpty = true
    · have hrefill : p.1.refill s = ForeignKey.fill (p.1.resolved s).targetColumns := by
        funext fk'
        rw [ForeignKey.refill, if_pos hempty]
      simp only [hempty, if_true, fill, List.modify_modify_eq, List.foldl_cons, hrefill]
      rfl
    · have hrefill : p.1.refill s = id := by
        funext fk'
        rw [ForeignKey.refill, if_neg hempty, id]
      simp only [hempty, Bool.false_eq_true, if_false, List.foldl_cons, hrefill, List.modify_id]

/-- Writing what was noted for all tables gives the resolved schema. -/
theorem Schema.foldl_fill :
    (s.tables.zipIdx.flatMap fun p => p.1.resolvedFillings s p.2).foldl fill s = s.resolved := by
  have htables (ps : List (Table × Nat)) (s' : Schema) :
      ps.foldl (fun s' p => { s' with tables := s'.tables.modify p.2 (p.1.refill s) }) s' =
        { s' with tables := ps.foldl (fun ts p => ts.modify p.2 (p.1.refill s)) s'.tables } := by
    induction ps generalizing s' with
    | nil => rfl
    | cons p ps ih => rw [List.foldl_cons, ih, List.foldl_cons]
  rw [List.foldl_flatMap]
  simp only [foldl_fill_resolvedFillings]
  rw [htables, foldl_modify_zipIdx (Table.refill s)]
  simp only [Table.refill_self]
  rfl

end

/-- Resolving in place runs the first pass, and the second if the first does not fail. -/
theorem Schema.run_resolveInPlace_eq (s : Schema) :
    resolveInPlace.run s =
      match s.fillings with
      | .ok written => .ok () (written.foldl fill s)
      | .error e => .error e s := by
  have hrun : resolveInPlace.run s = (do
      let written ← MonadExcept.ofExcept s.fillings
      written.forM fun filling => modify fun s => s.fill filling :
        EStateM Error Schema Unit).run s := rfl
  rw [hrun]
  cases s.fillings with
  | ok written => exact run_forM_modify fill written s
  | error e => rfl

/-- Resolving in place leaves the resolved schema in the variable, or the schema as it was and the
error. -/
theorem Schema.run_resolveInPlace (s : Schema) :
    resolveInPlace.run s =
      match s.resolve with
      | .ok s' => .ok () s'
      | .error e => .error e s := by
  rw [run_resolveInPlace_eq]
  cases hresolve : s.resolve with
  | ok s' =>
    obtain ⟨hresolvable, rfl⟩ := resolve_eq_ok_iff.1 hresolve
    rw [fillings_eq_ok_iff.2 ⟨hresolvable, rfl⟩]
    simp only [foldl_fill]
  | error e => rw [fillings_eq_error_iff.2 hresolve]

end Overlay
