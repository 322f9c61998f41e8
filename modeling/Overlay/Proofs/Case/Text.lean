import Overlay.Plan.Trigger
import Overlay.Text.Case

/-!
# Texts in lower case

How the lower case form of a generated text is made up of the lower case forms of its parts.
-/

namespace Overlay

namespace Text

/-! ### Characters -/

theorem toLower_toLower_char (c : Char) : c.toLower.toLower = c.toLower := by
  unfold Char.toLower
  split
  · next h =>
    have hlow : 65 ≤ c.val.toNat := h.1
    have hhigh : c.val.toNat ≤ 90 := h.2
    refine dif_neg fun h' => ?_
    have hletter : (c.val.toNat + 32) % 2 ^ 32 ≤ 90 := h'.2
    omega
  · rfl

/-- No other character becomes one that comes before the letters. -/
theorem toLower_eq_iff_of_lt {c d : Char} (hd : d.toNat < 65) : c.toLower = d ↔ c = d := by
  unfold Char.toLower
  split
  · next h =>
    have hlow : 65 ≤ c.toNat := h.1
    have hhigh : c.toNat ≤ 90 := h.2
    constructor
    · intro hlower
      have hletter : (c.toNat + 32) % 2 ^ 32 = d.toNat := congrArg Char.toNat hlower
      omega
    · rintro rfl
      omega
  · exact Iff.rfl

/-! ### Texts -/

section

variable {α : Type} {a b : String} {l : List String} {as : List α}

theorem toList_toLower (a : String) : a.toLower.toList = a.toList.map Char.toLower :=
  String.toList_map

theorem toLower_eq_iff_toList : a.toLower = b ↔ a.toList.map Char.toLower = b.toList := by
  rw [← toList_toLower, String.toList_inj]

@[simp] theorem toLower_toLower (a : String) : a.toLower.toLower = a.toLower := by
  rw [← String.toList_inj]
  simp only [toList_toLower, List.map_map]
  exact List.map_congr_left fun c _ => toLower_toLower_char c

@[simp] theorem toLower_append (a b : String) : (a ++ b).toLower = a.toLower ++ b.toLower := by
  rw [← String.toList_inj]
  simp only [toList_toLower, String.toList_append, List.map_append]

theorem toLower_ofList (cs : List Char) :
    (String.ofList cs).toLower = String.ofList (cs.map Char.toLower) := by
  rw [← String.toList_inj]
  simp only [toList_toLower, String.toList_ofList]

theorem sameName_toLower_left (a b : String) : sameName a.toLower b = sameName a b := by
  rw [sameName, toLower_toLower, sameName]

theorem sameName_toLower_right (a b : String) : sameName a b.toLower = sameName a b := by
  rw [sameName, toLower_toLower, sameName]

theorem sameName_append_left (c a b : String) : sameName (c ++ a) (c ++ b) = sameName a b := by
  rw [Bool.eq_iff_iff, sameName_iff, sameName_iff, toLower_append, toLower_append,
    ← String.toList_inj, String.toList_append, String.toList_append, List.append_right_inj,
    String.toList_inj]

theorem sameName_append_right (a b c : String) : sameName (a ++ c) (b ++ c) = sameName a b := by
  rw [Bool.eq_iff_iff, sameName_iff, sameName_iff, toLower_append, toLower_append,
    ← String.toList_inj, String.toList_append, String.toList_append, List.append_left_inj,
    String.toList_inj]

theorem toLower_intercalate (separator : String) (l : List String) :
    (separator.intercalate l).toLower =
      separator.toLower.intercalate (l.map String.toLower) := by
  induction l with
  | nil => simp [toLower_eq_iff_toList]
  | cons a l ih =>
    cases l with
    | nil => simp
    | cons b l =>
      rw [String.intercalate_cons_cons, toLower_append, toLower_append, ih]
      exact String.intercalate_cons_cons.symm

/-- Joined texts are equal up to case if their parts are. -/
theorem toLower_intercalate_map_congr {separator : String} {f g : α → String}
    (h : ∀ a ∈ as, (f a).toLower = (g a).toLower) :
    (separator.intercalate (as.map f)).toLower = (separator.intercalate (as.map g)).toLower := by
  rw [toLower_intercalate, toLower_intercalate, List.map_map, List.map_map]
  exact congrArg _ (List.map_congr_left h)

theorem toLower_quoted (a : String) : (quoted a).toLower = quoted a.toLower := by
  have hquotes (cs : List Char) :
      (doubleQuotes cs).map Char.toLower = doubleQuotes (cs.map Char.toLower) := by
    have hquote (c : Char) : c.toLower = '\x27' ↔ c = '\x27' := toLower_eq_iff_of_lt (by decide)
    simp only [doubleQuotes, List.map_flatMap, List.flatMap_map, hquote]
    congr 1
    funext c
    split <;> rfl
  have hquote : "'".toLower = "'" := toLower_eq_iff_toList.2 (by decide)
  rw [quoted, toLower_append, toLower_append, hquote, toLower_ofList, hquotes, quoted,
    toList_toLower]

end

end Text

open Text

theorem toLower_indented (depth : Nat) (a : String) :
    (indented depth a).toLower = indented depth a.toLower := by
  rw [indented, toLower_append, toLower_ofList, List.map_replicate]
  rfl

end Overlay
