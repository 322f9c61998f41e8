import Mathlib.Data.List.Induction

/-!
# Blocks as brackets

In the text of a trigger the lines `BEGIN` and `END` are brackets. A sequence of lines is balanced if
no `END` stands without a `BEGIN` before it and none is missing at the end; then every bracket has a
partner, with balanced lines between them (`Balanced.exists_stop`, `Balanced.exists_start`).
-/

namespace Overlay.TriggerText

/-- The number of blanks in front of a line. -/
def indentation (line : List Char) : Nat :=
  (line.takeWhile (· = ' ')).length

/-- A line without the blanks in front of it. -/
def unindented (line : List Char) : List Char :=
  line.dropWhile (· = ' ')

/-- The line opens a block. -/
def Opens (line : List Char) : Prop :=
  unindented line = "BEGIN".toList ∨ unindented line = "BEGIN ATOMIC".toList

/-- The line closes a block. -/
def Closes (line : List Char) : Prop :=
  unindented line = "END".toList

instance (line : List Char) : Decidable (Opens line) :=
  inferInstanceAs (Decidable (_ ∨ _))

instance (line : List Char) : Decidable (Closes line) :=
  inferInstanceAs (Decidable (_ = _))

/-- By how much a line changes the number of open blocks. -/
def weight (line : List Char) : Int :=
  if Opens line then 1 else if Closes line then -1 else 0

/-- The number of blocks that lines open and do not close. -/
def depth : List (List Char) → Int
  | [] => 0
  | line :: ls => weight line + depth ls

/-- Blocks are closed only after they were opened, and all of them are. -/
structure Balanced (ls : List (List Char)) : Prop where
  total : depth ls = 0
  nonneg : ∀ front back, ls = front ++ back → 0 ≤ depth front

section

variable {line start stop : List Char} {ls ls' before after inner : List (List Char)}

theorem Opens.weight_eq (h : Opens line) : weight line = 1 :=
  if_pos h

theorem Opens.not_closes (h : Opens line) : ¬Closes line := by
  unfold Closes
  obtain h | h := h <;> rw [h] <;> decide

theorem Closes.weight_eq (h : Closes line) : weight line = -1 := by
  rw [weight, if_neg fun hopens : Opens line => hopens.not_closes h, if_pos h]

theorem weight_eq_zero (hopens : ¬Opens line) (hcloses : ¬Closes line) : weight line = 0 := by
  rw [weight, if_neg hopens, if_neg hcloses]

@[simp] theorem depth_nil : depth [] = 0 := rfl

@[simp] theorem depth_cons (line : List Char) (ls : List (List Char)) :
    depth (line :: ls) = weight line + depth ls := rfl

@[simp] theorem depth_append (ls ls' : List (List Char)) :
    depth (ls ++ ls') = depth ls + depth ls' := by
  induction ls with
  | nil => rw [List.nil_append, depth_nil, Int.zero_add]
  | cons line ls ih => rw [List.cons_append, depth_cons, depth_cons, ih, Int.add_assoc]

/-! ### Balanced lines -/

theorem balanced_nil : Balanced [] where
  total := rfl
  nonneg front back h := by
    rw [(List.append_eq_nil_iff.1 h.symm).1]
    exact Int.le_refl 0

theorem Balanced.append (h : Balanced ls) (h' : Balanced ls') : Balanced (ls ++ ls') where
  total := by rw [depth_append, h.total, h'.total, Int.add_zero]
  nonneg front back hsplit := by
    obtain ⟨front', rfl, hback⟩ | ⟨rest, hfront, -⟩ := List.append_eq_append_iff.1 hsplit
    · rw [depth_append, h.total, Int.zero_add]
      exact h'.nonneg front' back hback
    · exact h.nonneg front rest hfront

theorem balanced_singleton (h : weight line = 0) : Balanced [line] where
  total := by rw [depth_cons, h, depth_nil, Int.add_zero]
  nonneg front back hsplit := by
    obtain ⟨rfl, -⟩ | ⟨rfl, -⟩ := List.append_eq_singleton_iff.1 hsplit.symm
    · exact Int.le_refl 0
    · rw [depth_cons, h]
      exact Int.le_refl 0

theorem Balanced.wrap (hopens : Opens start) (h : Balanced inner) (hcloses : Closes stop) :
    Balanced (start :: inner ++ [stop]) where
  total := by
    rw [depth_append, depth_cons, depth_cons, hopens.weight_eq, hcloses.weight_eq, h.total,
      depth_nil]
    rfl
  nonneg front back hsplit := by
    obtain ⟨rfl, -⟩ | ⟨front', rfl, hback⟩ := List.cons_eq_append_iff.1 hsplit
    · exact Int.le_refl 0
    · rw [depth_cons, hopens.weight_eq]
      change inner ++ [stop] = front' ++ back at hback
      obtain ⟨front'', rfl, hlast⟩ | ⟨rest, hfront, -⟩ := List.append_eq_append_iff.1 hback
      · -- The end of the block is the last line.
        rw [depth_append, h.total]
        obtain ⟨rfl, -⟩ | ⟨rfl, -⟩ := List.append_eq_singleton_iff.1 hlast.symm
        · decide
        · rw [depth_cons, hcloses.weight_eq]
          decide
      · have hinner := h.nonneg front' rest hfront
        omega

/-! ### Partners -/

/-- The lines close the `k` innermost of the open blocks and the next one, with its end `stop`. -/
def ClosesOuter (k : Nat) (ls : List (List Char)) : Prop :=
  ∃ inner stop rest, ls = inner ++ stop :: rest ∧ Closes stop ∧ depth inner + k = 0 ∧
    ∀ front back, inner = front ++ back → 0 ≤ depth front + k

/-- The lines open a block, with the line `start`, and `k` blocks inside it. -/
def OpensOuter (k : Nat) (ls : List (List Char)) : Prop :=
  ∃ front start inner, ls = front ++ start :: inner ∧ Opens start ∧ depth inner = k ∧
    ∀ middle back, inner = middle ++ back → depth back ≤ k

theorem Closes.closesOuter (h : Closes line) (after : List (List Char)) :
    ClosesOuter 0 (line :: after) := by
  refine ⟨[], line, after, rfl, h, rfl, fun front back hsplit => ?_⟩
  rw [(List.append_eq_nil_iff.1 hsplit.symm).1]
  exact Int.le_refl 0

theorem ClosesOuter.cons {k k' : Nat} (h : ClosesOuter k' after) (hk : weight line + k = k') :
    ClosesOuter k (line :: after) := by
  obtain ⟨inner, stop, rest, rfl, hstop, htotal, hnonneg⟩ := h
  refine ⟨line :: inner, stop, rest, rfl, hstop, ?_, fun front back hsplit => ?_⟩
  · rw [depth_cons]
    omega
  · obtain ⟨rfl, -⟩ | ⟨front', rfl, hback⟩ := List.cons_eq_append_iff.1 hsplit
    · rw [depth_nil]
      omega
    · have hfront := hnonneg front' back hback
      rw [depth_cons]
      omega

theorem Opens.opensOuter (h : Opens line) (before : List (List Char)) :
    OpensOuter 0 (before ++ [line]) := by
  refine ⟨before, line, [], rfl, h, rfl, fun middle back hsplit => ?_⟩
  rw [(List.append_eq_nil_iff.1 hsplit.symm).2]
  exact Int.le_refl 0

theorem OpensOuter.concat {k k' : Nat} (h : OpensOuter k' before) (hk : k' + weight line = k) :
    OpensOuter k (before ++ [line]) := by
  obtain ⟨front, start, inner, rfl, hstart, htotal, hle⟩ := h
  refine ⟨front, start, inner ++ [line], by simp, hstart, ?_, fun middle back hsplit => ?_⟩
  · rw [depth_append, depth_cons, depth_nil]
    omega
  · obtain ⟨back', rfl, hback⟩ | ⟨rest, rfl, rfl⟩ := List.append_eq_append_iff.1 hsplit
    · obtain ⟨-, rfl⟩ | ⟨-, rfl⟩ := List.append_eq_singleton_iff.1 hback.symm
      · have hnil := hle inner [] (List.append_nil _).symm
        rw [depth_nil] at hnil
        rw [depth_cons, depth_nil]
        omega
      · rw [depth_nil]
        omega
    · have hback := hle middle rest rfl
      rw [depth_append, depth_cons, depth_nil]
      omega

/-- Lines that close more blocks than they open close the last that was open before them. -/
theorem closesOuter_of_depth (k : Nat) (h : depth after + k < 0) : ClosesOuter k after := by
  induction after generalizing k with
  | nil =>
    rw [depth_nil] at h
    omega
  | cons line after ih =>
    rw [depth_cons] at h
    have hcons (k' : Nat) (hk : weight line + k = k') : ClosesOuter k (line :: after) :=
      (ih k' (by omega)).cons hk
    by_cases hopens : Opens line
    · exact hcons (k + 1) (by rw [hopens.weight_eq]; omega)
    by_cases hcloses : Closes line
    · cases k with
      | zero => exact hcloses.closesOuter after
      | succ k => exact hcons k (by rw [hcloses.weight_eq]; omega)
    · exact hcons k (by rw [weight_eq_zero hopens hcloses]; omega)

/-- Lines that open more blocks than they close open the first that is closed behind them. -/
theorem opensOuter_of_depth (k : Nat) (h : k < depth before) : OpensOuter k before := by
  induction before using List.reverseRecOn generalizing k with
  | nil =>
    rw [depth_nil] at h
    omega
  | append_singleton before line ih =>
    rw [depth_append, depth_cons, depth_nil] at h
    have hconcat (k' : Nat) (hk : k' + weight line = k) : OpensOuter k (before ++ [line]) :=
      (ih k' (by omega)).concat hk
    by_cases hopens : Opens line
    · cases k with
      | zero => exact hopens.opensOuter before
      | succ k => exact hconcat k (by rw [hopens.weight_eq]; omega)
    by_cases hcloses : Closes line
    · exact hconcat (k + 1) (by rw [hcloses.weight_eq]; omega)
    · exact hconcat k (by rw [weight_eq_zero hopens hcloses]; omega)

/-- Every block that is opened is closed later. -/
theorem Balanced.exists_stop (h : Balanced (before ++ line :: after)) (hopens : Opens line) :
    ∃ inner stop rest, after = inner ++ stop :: rest ∧ Balanced inner ∧ Closes stop := by
  have hbefore := h.nonneg before (line :: after) rfl
  have htotal := h.total
  rw [depth_append, depth_cons, hopens.weight_eq] at htotal
  have hafter : depth after + (0 : Nat) < 0 := by omega
  obtain ⟨inner, stop, rest, rfl, hstop, hinner, hnonneg⟩ := closesOuter_of_depth 0 hafter
  refine ⟨inner, stop, rest, rfl, ⟨by omega, fun front back hsplit => ?_⟩, hstop⟩
  have hfront := hnonneg front back hsplit
  omega

/-- Every block that is closed was opened before. -/
theorem Balanced.exists_start (h : Balanced (before ++ line :: after)) (hcloses : Closes line) :
    ∃ front start inner, before = front ++ start :: inner ∧ Opens start ∧ Balanced inner := by
  have hline := h.nonneg (before ++ [line]) after (by simp)
  rw [depth_append, depth_cons, hcloses.weight_eq, depth_nil] at hline
  have hbefore : (0 : Nat) < depth before := by omega
  obtain ⟨front, start, inner, rfl, hstart, hinner, hle⟩ := opensOuter_of_depth 0 hbefore
  refine ⟨front, start, inner, rfl, hstart, hinner, fun middle back hsplit => ?_⟩
  have hback := hle middle back hsplit
  rw [hsplit, depth_append] at hinner
  omega

end

end Overlay.TriggerText
