import Mathlib.Data.List.TakeWhile
import Overlay.Proofs.SchemaText.Grammar

/-!
# Reading the parts of a line

Each phrase reads a part of the grammar from the start of a text. The statements here are
equivalences: a phrase gives a value and a rest exactly when the text is a spelling of that value
followed by that rest, and the rest cannot prolong the spelling (`Free`). Keywords are compared in
bytes by their phrase, which makes no difference for a text without KELVIN SIGN or a keyword without
`k`.
-/

namespace Overlay.SchemaText.Grammar

open Overlay.Text

/-- The text does not start with a character of the class. -/
def Free (p : Char → Bool) (cs : List Char) : Prop :=
  ∀ c ∈ cs.head?, p c = false

section

variable {p : Char → Bool} {u v cs rest : List Char}

theorem free_nil : Free p [] := by
  simp [Free]

theorem free_cons {c : Char} : Free p (c :: cs) ↔ p c = false := by
  simp [Free]

instance (p : Char → Bool) : (cs : List Char) → Decidable (Free p cs)
  | [] => isTrue free_nil
  | _ :: _ => decidable_of_iff _ free_cons.symm

theorem free_dropWhile : Free p (cs.dropWhile p) := by
  induction cs with
  | nil => exact free_nil
  | cons c cs ih =>
    rw [List.dropWhile_cons]
    split
    · exact ih
    · next hc => exact free_cons.2 (Bool.eq_false_iff.2 hc)

theorem takeWhile_append_of_free (hu : ∀ c ∈ u, p c = true) (hr : Free p rest) :
    (u ++ rest).takeWhile p = u := by
  rw [List.takeWhile_append_of_pos hu]
  cases rest with
  | nil => simp
  | cons c rest => simp [free_cons.1 hr]

theorem dropWhile_append_of_free (hu : ∀ c ∈ u, p c = true) (hr : Free p rest) :
    (u ++ rest).dropWhile p = rest := by
  rw [List.dropWhile_append_of_pos hu]
  cases rest with
  | nil => simp
  | cons c rest => simp [free_cons.1 hr]

end

/-! ### Words and gaps -/

section

variable {cs g w rest : List Char} {name : String}

theorem Word.ne_nil (h : Word w name) : w ≠ [] := h.2.1

theorem Word.forall_mem (h : Word w name) : ∀ c ∈ w, isWordChar c = true := h.2.2

theorem word_eq_some_iff_append :
    word cs = some (name, rest) ↔
      ∃ w, Word w name ∧ cs = w ++ rest ∧ Free isWordChar rest := by
  rw [word_eq_some_iff]
  constructor
  · rintro ⟨hname, htake, rfl⟩
    refine ⟨cs.takeWhile isWordChar, ⟨htake, ?_, fun c hc => List.mem_takeWhile_imp hc⟩,
      List.takeWhile_append_dropWhile.symm, free_dropWhile⟩
    rw [htake]
    exact fun h => hname (String.toList_eq_nil_iff.1 h)
  · rintro ⟨w, ⟨rfl, hne, hw⟩, rfl, hr⟩
    refine ⟨?_, takeWhile_append_of_free hw hr, dropWhile_append_of_free hw hr⟩
    rintro rfl
    exact hne rfl

theorem skipSpaces_append (hg : Spaces g) (hr : Free isSpace rest) :
    skipSpaces (g ++ rest) = rest :=
  dropWhile_append_of_free hg hr

theorem exists_spaces_append_skipSpaces (cs : List Char) :
    ∃ g, Spaces g ∧ cs = g ++ skipSpaces cs :=
  ⟨cs.takeWhile isSpace, fun _ hc => List.mem_takeWhile_imp hc,
    List.takeWhile_append_dropWhile.symm⟩

theorem free_skipSpaces : Free isSpace (skipSpaces cs) :=
  free_dropWhile

theorem skipGap_eq_some_iff :
    skipGap cs = some rest ↔ ∃ g, Gap g ∧ cs = g ++ rest ∧ Free isSpace rest := by
  cases cs with
  | nil =>
    simp only [skipGap, reduceCtorEq, false_iff, not_exists, not_and]
    intro g hg h
    exact absurd (List.append_eq_nil_iff.1 h.symm).1 hg.1
  | cons c cs =>
    simp only [skipGap, Option.ite_none_right_eq_some, Option.some.injEq]
    constructor
    · rintro ⟨hc, rfl⟩
      obtain ⟨g, hg, hcs⟩ := exists_spaces_append_skipSpaces cs
      refine ⟨c :: g, ⟨by simp, ?_⟩, ?_, free_skipSpaces⟩
      · exact List.forall_mem_cons.2 ⟨hc, hg⟩
      · rw [List.cons_append, ← hcs]
    · rintro ⟨g, ⟨hne, hg⟩, h, hr⟩
      obtain _ | ⟨d, g⟩ := g
      · exact absurd rfl hne
      · obtain ⟨rfl, rfl⟩ := List.cons.inj h
        obtain ⟨hd, hg⟩ := List.forall_mem_cons.1 hg
        exact ⟨hd, skipSpaces_append hg hr⟩

end

/-! ### Keywords -/

/-- KELVIN SIGN, whose lowercase form is an ASCII letter. -/
abbrev kelvinSign : Char := '\u212a'

/-- Every character takes one byte. -/
def Ascii (cs : List Char) : Prop :=
  ∀ c ∈ cs, c.utf8Size = 1

instance (cs : List Char) : Decidable (Ascii cs) :=
  List.decidableBAll _ cs

/-- Whether two texts differ in a character, as far as the shorter of the two goes. -/
def clash (a b : List Char) : Bool :=
  (a.zip b).any fun (c, d) => c != d

section

variable {c w : Char} {cs word p rest : List Char} {keyword : String}

theorem ne_kelvinSign_of_utf8Size (h : c.utf8Size = 1) : c ≠ kelvinSign := by
  rintro rfl
  revert h
  decide

theorem utf8Size_of_toLower (h : c.toLower.utf8Size = 1) : c.utf8Size = 1 := by
  rw [Char.utf8Size_eq_one_iff] at h ⊢
  unfold Char.toLower at h
  split at h
  · next hc => exact UInt32.le_trans hc.2 (by decide)
  · exact h

theorem Ascii.of_map_toLower (h : Ascii (cs.map Char.toLower)) : Ascii cs :=
  fun _ hc => utf8Size_of_toLower (h _ (List.mem_map_of_mem hc))

theorem afterKeyword_nil : afterKeyword [] cs = some cs := by
  simp [afterKeyword, spells, agrees, utf8Length, hasBytes, dropBytes]

theorem utf8Length_cons (hw : w.utf8Size = 1) : utf8Length (w :: word) = utf8Length word + 1 := by
  simp [utf8Length, hw, Nat.add_comm]

theorem afterKeyword_cons_nil (hw : w.utf8Size = 1) : afterKeyword (w :: word) [] = none := by
  simp [afterKeyword, spells, utf8Length_cons hw, hasBytes]

/-- KELVIN SIGN makes a difference for the letter `k` only. -/
theorem lowerLetter_eq_iff (hw : w.utf8Size = 1) (hc : w = 'k' → c ≠ kelvinSign) :
    lowerLetter c = w ↔ c.toLower = w := by
  by_cases hkelvin : c = kelvinSign
  · have hlower : lowerLetter c = 'k' := if_pos hkelvin
    rw [hlower]
    refine ⟨fun h => absurd hkelvin (hc h.symm), fun h => ?_⟩
    exact absurd hkelvin (ne_kelvinSign_of_utf8Size (utf8Size_of_toLower (h ▸ hw)))
  · rw [show lowerLetter c = c.toLower from if_neg hkelvin]

theorem afterKeyword_cons_cons (hw : w.utf8Size = 1) (hc : w = 'k' → c ≠ kelvinSign) :
    afterKeyword (w :: word) (c :: cs) =
      if c.toLower = w then afterKeyword word cs else none := by
  have hlower := lowerLetter_eq_iff hw hc
  by_cases h : c.toLower = w
  · have hsize : c.utf8Size = 1 := utf8Size_of_toLower (h ▸ hw)
    have hspells : spells (w :: word) (c :: cs) = spells word cs := by
      simp only [spells, agrees, List.zip_cons_cons, List.all_cons, hlower.2 h, beq_self_eq_true,
        Bool.true_and, utf8Length_cons hw, hasBytes, hsize, Nat.add_sub_cancel]
    simp [afterKeyword, hspells, utf8Length_cons hw, dropBytes, hsize, h]
  · simp [afterKeyword, spells, agrees, hlower, h]

theorem afterKeyword_append (hword : Ascii (p.map Char.toLower)) :
    afterKeyword (p.map Char.toLower) (p ++ rest) = some rest := by
  induction p with
  | nil => exact afterKeyword_nil
  | cons c p ih =>
    obtain ⟨hw, hword⟩ := List.forall_mem_cons.1 hword
    rw [List.map_cons, List.cons_append, afterKeyword_cons_cons hw fun _ =>
      ne_kelvinSign_of_utf8Size (utf8Size_of_toLower hw), if_pos rfl]
    exact ih hword

theorem agrees_cons_cons :
    agrees (w :: word) (c :: cs) = (lowerLetter c == w && agrees word cs) := rfl

/-- If fewer bytes are dropped than the word has, what is left goes on with a letter of the word. -/
theorem lowerLetter_mem_of_dropBytes {n : Nat} (hword : Ascii word)
    (hagrees : agrees word cs = true) (hn : n < utf8Length word) (h : dropBytes n cs = some rest) :
    ∀ d ∈ rest.head?, lowerLetter d ∈ word := by
  induction word generalizing n cs with
  | nil => exact absurd hn (Nat.not_lt_zero n)
  | cons w word ih =>
    obtain ⟨hw, hword⟩ := List.forall_mem_cons.1 hword
    rw [utf8Length_cons hw] at hn
    cases cs with
    | nil => cases n <;> cases h; simp
    | cons c cs =>
      rw [agrees_cons_cons, Bool.and_eq_true, beq_iff_eq] at hagrees
      obtain ⟨hletter, hagrees⟩ := hagrees
      cases n with
      | zero =>
        cases h
        simp [hletter]
      | succ n =>
        obtain ⟨-, h⟩ := (Option.ite_none_right_eq_some).1 h
        have hsize := c.utf8Size_pos
        exact fun d hd => List.mem_cons_of_mem w (ih hword hagrees (by omega) h d hd)

theorem exists_append_of_dropBytes {n : Nat} (h : dropBytes n cs = some rest) :
    ∃ p, cs = p ++ rest := by
  fun_induction dropBytes n cs with
  | case1 cs => exact ⟨[], by simpa using h⟩
  | case2 => cases h
  | case3 n c cs _ ih =>
    obtain ⟨p, rfl⟩ := ih h
    exact ⟨c :: p, rfl⟩
  | case4 => cases h

/-- A keyword is a word in letters of any case, unless KELVIN SIGN stands for its `k`; then the text
behind the keyword goes on with a letter of the keyword. -/
theorem exists_of_afterKeyword (hword : Ascii word) (h : afterKeyword word cs = some rest) :
    ∃ p, cs = p ++ rest ∧ (p.map Char.toLower = word ∨
      'k' ∈ word ∧ kelvinSign ∈ p ∧ ∀ d ∈ rest.head?, lowerLetter d ∈ word) := by
  induction word generalizing cs with
  | nil =>
    obtain rfl := Option.some.inj (afterKeyword_nil.symm.trans h)
    exact ⟨[], rfl, .inl rfl⟩
  | cons w word ih =>
    obtain ⟨hw, hword'⟩ := List.forall_mem_cons.1 hword
    cases cs with
    | nil =>
      rw [afterKeyword_cons_nil hw] at h
      cases h
    | cons c cs =>
      by_cases hc : w = 'k' → c ≠ kelvinSign
      · rw [afterKeyword_cons_cons hw hc, Option.ite_none_right_eq_some] at h
        obtain ⟨rfl, h⟩ := h
        obtain ⟨p, rfl, hp | ⟨hk, hkelvin, hrest⟩⟩ := ih hword' h
        · exact ⟨c :: p, rfl, .inl (by rw [List.map_cons, hp])⟩
        · exact ⟨c :: p, rfl, .inr ⟨List.mem_cons_of_mem _ hk, List.mem_cons_of_mem _ hkelvin,
            fun d hd => List.mem_cons_of_mem _ (hrest d hd)⟩⟩
      · -- KELVIN SIGN takes as many bytes as three letters.
        obtain ⟨rfl, hkelvin⟩ := Classical.not_imp.1 hc
        obtain rfl := Classical.not_not.1 hkelvin
        obtain ⟨hspells, hdrop⟩ := Option.ite_none_right_eq_some.1 h
        rw [spells, agrees_cons_cons, Bool.and_eq_true, Bool.and_eq_true] at hspells
        obtain ⟨⟨-, hagrees⟩, -⟩ := hspells
        rw [utf8Length_cons hw] at hdrop
        obtain ⟨hbytes, hdrop⟩ := Option.ite_none_right_eq_some.1 hdrop
        have hsize : kelvinSign.utf8Size = 3 := by decide
        rw [hsize] at hbytes hdrop
        obtain ⟨q, rfl⟩ := exists_append_of_dropBytes hdrop
        have hfewer : utf8Length word + 1 - 3 < utf8Length word := by omega
        have hrest := lowerLetter_mem_of_dropBytes hword' hagrees hfewer hdrop
        exact ⟨kelvinSign :: q, rfl, .inr ⟨List.mem_cons_self, List.mem_cons_self,
          fun d hd => List.mem_cons_of_mem _ (hrest d hd)⟩⟩

/-- A keyword is a word in letters of any case, if it has no `k` or the text no KELVIN SIGN. -/
theorem afterKeyword_eq_some_iff (hword : Ascii word) (hcs : 'k' ∈ word → kelvinSign ∉ cs) :
    afterKeyword word cs = some rest ↔ ∃ p, p.map Char.toLower = word ∧ cs = p ++ rest := by
  constructor
  · intro h
    obtain ⟨p, rfl, hp | ⟨hk, hkelvin, -⟩⟩ := exists_of_afterKeyword hword h
    · exact ⟨p, hp, rfl⟩
    · exact absurd (List.mem_append_left rest hkelvin) (hcs hk)
  · rintro ⟨p, rfl, rfl⟩
    exact afterKeyword_append hword

/-- A text that starts with a spelling that differs from the keyword in some letter does not start
with the keyword. -/
theorem afterKeyword_append_eq_none (hword : Ascii word) (hp : Ascii p)
    (h : clash word (p.map Char.toLower) = true) :
    afterKeyword word (p ++ rest) = none := by
  induction word generalizing p with
  | nil => simp [clash] at h
  | cons w word ih =>
    cases p with
    | nil => simp [clash] at h
    | cons c p =>
      obtain ⟨hw, hword⟩ := List.forall_mem_cons.1 hword
      obtain ⟨hc, hp⟩ := List.forall_mem_cons.1 hp
      rw [List.cons_append, afterKeyword_cons_cons hw fun _ => ne_kelvinSign_of_utf8Size hc]
      split
      · next heq =>
        refine ih hword hp ?_
        simpa [clash, heq] using h
      · rfl

theorem after_eq_some_iff (hk : Ascii keyword.toList)
    (hcs : 'k' ∈ keyword.toList → kelvinSign ∉ cs) :
    after keyword cs = some rest ↔ ∃ p, Keyword keyword p ∧ cs = p ++ rest :=
  afterKeyword_eq_some_iff hk hcs

theorem Keyword.ascii (hp : Keyword keyword p) (hk : Ascii keyword.toList) : Ascii p :=
  Ascii.of_map_toLower (hp ▸ hk)

theorem after_append (hk : Ascii keyword.toList) (hp : Keyword keyword p) :
    after keyword (p ++ rest) = some rest := by
  rw [Keyword] at hp
  rw [after, ← hp]
  exact afterKeyword_append (hp ▸ hk)

/-- What a keyword is read from starts with its first letter. -/
theorem exists_cons_of_after (hk : Ascii keyword.toList) (hne : keyword.toList ≠ [])
    (h : after keyword cs = some rest) :
    ∃ d tail, cs = d :: tail ∧ keyword.toList.head? = some (lowerLetter d) := by
  obtain ⟨w, word, hcons⟩ := List.exists_cons_of_ne_nil hne
  rw [after, hcons] at h
  rw [hcons] at hk ⊢
  cases cs with
  | nil =>
    rw [afterKeyword_cons_nil (hk w List.mem_cons_self)] at h
    cases h
  | cons d tail =>
    obtain ⟨hspells, -⟩ := Option.ite_none_right_eq_some.1 h
    rw [spells, agrees_cons_cons, Bool.and_eq_true, Bool.and_eq_true, beq_iff_eq] at hspells
    exact ⟨d, tail, rfl, by rw [List.head?_cons, hspells.1.1]⟩

theorem after_append_eq_none (keyword other : String) (hk : Ascii keyword.toList)
    (ho : Ascii other.toList) (hp : Keyword other p)
    (h : clash keyword.toList other.toList = true) :
    after keyword (p ++ rest) = none := by
  refine afterKeyword_append_eq_none hk (hp.ascii ho) ?_
  rwa [show p.map Char.toLower = other.toList from hp]

end

end Overlay.SchemaText.Grammar
