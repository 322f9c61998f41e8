import Overlay.Text.Alphanumeric
import Overlay.Text.Line

/-!
# Phrases

A phrase reads something from the start of a text: it gives what it read and the text after it, or
nothing. Here are the phrases that a line of words and symbols is made of: words, gaps between
words, single symbols, and repetition.
-/

namespace Overlay.Text

/-- Reads a value from the start of a text and gives the rest. -/
abbrev Phrase (α : Type) := List Char → Option (α × List Char)

/-- The characters of words: alphanumeric characters and `_`. -/
def isWordChar (c : Char) : Bool :=
  isAlphanumeric c || c == '_'

/-- A word, as long as possible. -/
def word : Phrase String := fun cs =>
  match cs.takeWhile isWordChar with
  | [] => none
  | w => some (String.ofList w, cs.dropWhile isWordChar)

/-- The text after any spaces and tabs. -/
def skipSpaces (cs : List Char) : List Char :=
  cs.dropWhile isSpace

/-- The text after at least one space or tab. -/
def skipGap : List Char → Option (List Char)
  | [] => none
  | c :: cs => if isSpace c then some (skipSpaces cs) else none

/-- The text after the character `symbol`. -/
def skipSymbol (symbol : Char) : List Char → Option (List Char)
  | [] => none
  | c :: cs => if c = symbol then some cs else none

/-- Reads `item` as often as it succeeds; a success that leaves the text as long as it was ends the
run. -/
def many {α : Type} (item : Phrase α) (cs : List Char) : List α × List Char :=
  match item cs with
  | none => ([], cs)
  | some (a, rest) =>
    if rest.length < cs.length then
      let (as, rest) := many item rest
      (a :: as, rest)
    else ([], cs)
termination_by cs.length

/-- What a phrase reads from a text that it reads to the end. -/
def whole {α : Type} (phrase : Phrase α) (cs : List Char) : Option α :=
  match phrase cs with
  | some (a, []) => some a
  | _ => none

/-! ### What is read and what is left -/

section

variable {α : Type} {item : Phrase α} {cs rest : List Char} {a : α}

theorem many_of_eq_none (h : item cs = none) : many item cs = ([], cs) := by
  rw [many, h]

theorem many_of_eq_some (h : item cs = some (a, rest)) (hlt : rest.length < cs.length) :
    many item cs = (a :: (many item rest).1, (many item rest).2) := by
  rw [many, h]
  simp [hlt]

theorem whole_eq_some_iff : whole item cs = some a ↔ item cs = some (a, []) := by
  unfold whole
  split <;> simp_all

end

theorem skipSymbol_eq_some_iff {symbol : Char} {cs rest : List Char} :
    skipSymbol symbol cs = some rest ↔ cs = symbol :: rest := by
  cases cs with
  | nil => simp [skipSymbol]
  | cons c cs => simp [skipSymbol]

/-- A word and the rest make up the text; the word is not empty and the rest starts with no word
character. -/
theorem word_eq_some_iff {cs rest : List Char} {w : String} :
    word cs = some (w, rest) ↔
      w ≠ "" ∧ cs.takeWhile isWordChar = w.toList ∧ cs.dropWhile isWordChar = rest := by
  unfold word
  split
  · next h =>
    rw [h]
    simp only [reduceCtorEq, false_iff, not_and]
    intro hw h
    exact absurd (String.toList_eq_nil_iff.1 h.symm) hw
  · next h =>
    simp only [Option.some.injEq, Prod.mk.injEq]
    constructor
    · rintro ⟨rfl, rfl⟩
      refine ⟨fun hw => h ?_, by simp, rfl⟩
      simpa using congrArg String.toList hw
    · rintro ⟨-, hw, rfl⟩
      rw [hw]
      simp

end Overlay.Text
