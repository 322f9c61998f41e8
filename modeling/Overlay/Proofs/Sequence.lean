import Mathlib.Data.List.Forall2

/-!
# Sequences of steps that can fail

A computation that can fail is a value of `Except`. A sequence succeeds if each of its steps does,
and its error is the error of the first step that fails.
-/

namespace Overlay

section

variable {ε α β γ : Type}

@[simp] theorem ok_bind (a : α) (f : α → Except ε β) : (Except.ok a >>= f) = f a := rfl

@[simp] theorem error_bind (e : ε) (f : α → Except ε β) : (Except.error e >>= f) = .error e := rfl

theorem bind_eq_ok_iff {x : Except ε α} {f : α → Except ε β} {b : β} :
    (x >>= f) = .ok b ↔ ∃ a, x = .ok a ∧ f a = .ok b := by
  cases x with
  | error e => simp
  | ok a => simp

theorem bind_eq_error_iff {x : Except ε α} {f : α → Except ε β} {e : ε} :
    (x >>= f) = .error e ↔ x = .error e ∨ ∃ a, x = .ok a ∧ f a = .error e := by
  cases x with
  | error e => simp
  | ok a => simp

theorem bind_ok_eq_error_iff {x : Except ε α} {f : α → β} {e : ε} :
    (x >>= fun a => .ok (f a)) = .error e ↔ x = .error e := by
  cases x with
  | error e => simp
  | ok a => simp

/-- Two outcomes that differ in what `f` leaves out of an error still do so behind further steps. -/
theorem mapError_bind_congr {ε' : Type} {f : ε → ε'} {x y : Except ε α} (k : α → Except ε β)
    (h : x.mapError f = y.mapError f) : (x >>= k).mapError f = (y >>= k).mapError f := by
  cases x with
  | ok a =>
    cases y with
    | ok b => rw [Except.ok.inj h]
    | error e => cases h
  | error e =>
    cases y with
    | ok b => cases h
    | error e' => exact congrArg Except.error (Except.error.inj h)

theorem mapM_eq_ok_iff {f : α → Except ε β} {l : List α} {bs : List β} :
    l.mapM f = .ok bs ↔ List.Forall₂ (fun a b => f a = .ok b) l bs := by
  induction l generalizing bs with
  | nil => cases bs <;> simp [pure, Except.pure]
  | cons a l ih =>
    rw [List.mapM_cons, bind_eq_ok_iff, List.forall₂_cons_left_iff]
    simp only [bind_eq_ok_iff, ih, pure, Except.pure, Except.ok.injEq]
    constructor
    · rintro ⟨b, hb, bs, hbs, rfl⟩
      exact ⟨b, bs, hb, hbs, rfl⟩
    · rintro ⟨b, bs, hb, hbs, rfl⟩
      exact ⟨b, hb, bs, hbs, rfl⟩

theorem mapM_eq_ok_iff_eq_map {f : α → Except ε β} {p : α → Prop} {g : α → β} {l : List α}
    {bs : List β} (h : ∀ a ∈ l, ∀ b, f a = .ok b ↔ p a ∧ b = g a) :
    l.mapM f = .ok bs ↔ (∀ a ∈ l, p a) ∧ bs = l.map g := by
  rw [mapM_eq_ok_iff]
  induction l generalizing bs with
  | nil => simp
  | cons a l ih =>
    obtain ⟨ha, hl⟩ := List.forall_mem_cons.1 h
    rw [List.forall₂_cons_left_iff]
    simp only [ha, ih hl, List.forall_mem_cons, List.map_cons]
    constructor
    · rintro ⟨_, _, ⟨hpa, rfl⟩, ⟨hpl, rfl⟩, rfl⟩
      exact ⟨⟨hpa, hpl⟩, rfl⟩
    · rintro ⟨⟨hpa, hpl⟩, rfl⟩
      exact ⟨_, _, ⟨hpa, rfl⟩, ⟨hpl, rfl⟩, rfl⟩

theorem mapM_cons_eq_error_iff {f : α → Except ε β} {a : α} {l : List α} {e : ε} :
    (a :: l).mapM f = .error e ↔ f a = .error e ∨ (∃ b, f a = .ok b) ∧ l.mapM f = .error e := by
  have hrest (b : β) :
      (l.mapM f >>= fun bs => .ok (b :: bs)) = .error e ↔ l.mapM f = .error e :=
    bind_ok_eq_error_iff
  rw [List.mapM_cons, bind_eq_error_iff]
  simp only [pure, Except.pure, hrest, exists_and_right]

/-- Outcomes that agree in what `f` makes of a result agree in what can be told from that. -/
theorem map_eq_map_of_map_eq {f : α → β} {g : α → γ} (hg : ∀ a a', f a = f a' → g a = g a')
    {x y : Except ε α} (h : x.map f = y.map f) : x.map g = y.map g := by
  cases x with
  | error e =>
    cases y with
    | error e' => exact congrArg Except.error (Except.error.inj h)
    | ok a' => cases h
  | ok a =>
    cases y with
    | error e' => cases h
    | ok a' => exact congrArg Except.ok (hg a a' (Except.ok.inj h))

/-- The results of a sequence can be changed one by one. -/
theorem map_mapM (f : α → Except ε β) (g : β → γ) (l : List α) :
    (l.mapM f).map (List.map g) = l.mapM fun a => (f a).map g := by
  induction l with
  | nil => rfl
  | cons a l ih =>
    rw [List.mapM_cons, List.mapM_cons, ← ih]
    cases f a with
    | error e => rfl
    | ok b => cases l.mapM f <;> rfl

/-- A sequence fails with the error of the first item that fails. -/
theorem mapM_eq_error_iff {f : α → Except ε β} {l : List α} {e : ε} :
    l.mapM f = .error e ↔
      ∃ before a after, l = before ++ a :: after ∧ (∀ x ∈ before, ∃ b, f x = .ok b) ∧
        f a = .error e := by
  induction l with
  | nil => simp [pure, Except.pure]
  | cons a l ih =>
    rw [mapM_cons_eq_error_iff, ih]
    constructor
    · rintro (h | ⟨ha, before, a', after, rfl, hbefore, h⟩)
      · exact ⟨[], a, l, rfl, by simp, h⟩
      · exact ⟨a :: before, a', after, rfl, List.forall_mem_cons.2 ⟨ha, hbefore⟩, h⟩
    · rintro ⟨before, a', after, hl, hbefore, h⟩
      cases before with
      | nil =>
        obtain ⟨rfl, rfl⟩ := List.cons.inj hl
        exact .inl h
      | cons d before =>
        obtain ⟨rfl, rfl⟩ := List.cons.inj hl
        obtain ⟨ha, hbefore⟩ := List.forall_mem_cons.1 hbefore
        exact .inr ⟨ha, before, a', after, rfl, hbefore, h⟩

theorem exists_of_forM_eq_error {check : α → Except ε Unit} {l : List α} {e : ε}
    (h : l.forM check = .error e) : ∃ a ∈ l, check a = .error e := by
  induction l with
  | nil => cases h
  | cons a l ih =>
    rw [List.forM_eq_forM] at ih h
    rw [List.forM_cons, bind_eq_error_iff] at h
    obtain ha | ⟨_, -, hl⟩ := h
    · exact ⟨a, List.mem_cons_self, ha⟩
    · obtain ⟨b, hb, hcheck⟩ := ih hl
      exact ⟨b, List.mem_cons_of_mem a hb, hcheck⟩

/-- A run fails at the first item that cannot be taken in. -/
theorem foldlM_eq_error_iff {σ : Type} {step : σ → α → Except ε σ} {l : List α} {s : σ} {e : ε} :
    l.foldlM step s = .error e ↔
      ∃ before a after s', l = before ++ a :: after ∧ before.foldlM step s = .ok s' ∧
        step s' a = .error e := by
  induction l generalizing s with
  | nil => simp [pure, Except.pure]
  | cons a l ih =>
    rw [List.foldlM_cons, bind_eq_error_iff]
    simp only [ih]
    constructor
    · rintro (h | ⟨s₁, hs₁, before, b, after, s', rfl, hbefore, h⟩)
      · exact ⟨[], a, l, s, rfl, rfl, h⟩
      · refine ⟨a :: before, b, after, s', rfl, ?_, h⟩
        rw [List.foldlM_cons, hs₁, ok_bind, hbefore]
    · rintro ⟨before, b, after, s', hl, hbefore, h⟩
      cases before with
      | nil =>
        obtain ⟨rfl, rfl⟩ := List.cons.inj hl
        obtain rfl := Except.ok.inj hbefore
        exact .inl h
      | cons c before =>
        obtain ⟨rfl, rfl⟩ := List.cons.inj hl
        rw [List.foldlM_cons, bind_eq_ok_iff] at hbefore
        obtain ⟨s₁, hs₁, hbefore⟩ := hbefore
        exact .inr ⟨s₁, hs₁, before, b, after, s', rfl, hbefore, h⟩

/-- A run that fails fails in the same way on a longer list. -/
theorem foldlM_append_of_eq_error {σ : Type} {step : σ → α → Except ε σ} {l : List α} {s : σ}
    {e : ε} (h : l.foldlM step s = .error e) (more : List α) :
    (l ++ more).foldlM step s = .error e := by
  rw [List.foldlM_append, h, error_bind]

/-- Whether a computation succeeds with a result that passes a test. -/
def succeedsWith (x : Except ε α) (test : α → Bool) : Bool :=
  match x with
  | .ok a => test a
  | .error _ => false

theorem exists_of_succeedsWith {x : Except ε α} {test : α → Bool}
    (h : succeedsWith x test = true) : ∃ a, x = .ok a ∧ test a = true := by
  cases x with
  | error e => cases h
  | ok a => exact ⟨a, rfl, h⟩

/-- Whether a computation fails with this error. -/
def failsWith [DecidableEq ε] (x : Except ε α) (e : ε) : Bool :=
  match x with
  | .ok _ => false
  | .error e' => e' = e

theorem eq_error_of_failsWith [DecidableEq ε] {x : Except ε α} {e : ε}
    (h : failsWith x e = true) : x = .error e := by
  cases x with
  | error e' => exact congrArg Except.error (of_decide_eq_true h)
  | ok a => cases h

end

end Overlay
