import Overlay.Plan.Trigger
import Overlay.Text.Phrase

/-!
# Reading string literals

A quote opens a string literal, a doubled quote inside it stands for one quote, and a single quote
closes it. A literal is read from a text exactly if the text starts with the written form of what is
read, and the text behind it does not go on with a quote (`literal_eq_some_iff`).
-/

namespace Overlay.Text

/-- The characters of a literal up to the quote that closes it, and the text behind this quote. -/
def literalBody : List Char → Option (List Char × List Char)
  | [] => none
  | '\x27' :: '\x27' :: cs => (literalBody cs).map fun (text, rest) => ('\x27' :: text, rest)
  | '\x27' :: cs => some ([], cs)
  | c :: cs => (literalBody cs).map fun (text, rest) => (c :: text, rest)

/-- A string literal, as the text that it stands for. -/
def literal : Phrase String := fun cs => do
  let cs ← skipSymbol '\x27' cs
  let (text, rest) ← literalBody cs
  some (String.ofList text, rest)

section

variable {c : Char} {cs text rest : List Char}

theorem doubleQuotes_cons_quote :
    doubleQuotes ('\x27' :: cs) = '\x27' :: '\x27' :: doubleQuotes cs := rfl

theorem doubleQuotes_cons (hc : c ≠ '\x27') : doubleQuotes (c :: cs) = c :: doubleQuotes cs := by
  simp [doubleQuotes, hc]

theorem literalBody_quote (h : rest.head? ≠ some '\x27') :
    literalBody ('\x27' :: rest) = some ([], rest) := by
  cases rest with
  | nil => rfl
  | cons c rest =>
    have hc : c ≠ '\x27' := fun heq => h (congrArg some heq)
    simp [literalBody, hc]

theorem literalBody_append (h : rest.head? ≠ some '\x27') (text : List Char) :
    literalBody (doubleQuotes text ++ '\x27' :: rest) = some (text, rest) := by
  induction text with
  | nil => exact literalBody_quote h
  | cons c text ih =>
    by_cases hc : c = '\x27'
    · subst hc
      rw [doubleQuotes_cons_quote, List.cons_append, List.cons_append, literalBody, ih]
      rfl
    · rw [doubleQuotes_cons hc, List.cons_append, literalBody, ih]
      · rfl
      · exact fun _ hquote _ => hc hquote
      · exact hc

theorem eq_append_of_literalBody (h : literalBody cs = some (text, rest)) :
    cs = doubleQuotes text ++ '\x27' :: rest ∧ rest.head? ≠ some '\x27' := by
  fun_induction literalBody cs generalizing text with
  | case1 => cases h
  | case2 cs ih =>
    obtain ⟨⟨text', rest'⟩, hbody, heq⟩ := Option.map_eq_some_iff.1 h
    obtain ⟨rfl, rfl⟩ := Prod.mk.inj heq
    obtain ⟨rfl, hrest⟩ := ih hbody
    exact ⟨rfl, hrest⟩
  | case3 cs hsingle =>
    obtain ⟨rfl, rfl⟩ := Prod.mk.inj (Option.some.inj h)
    refine ⟨rfl, fun hhead => ?_⟩
    obtain ⟨tail, rfl⟩ := List.head?_eq_some_iff.1 hhead
    exact hsingle tail rfl
  | case4 c cs _ hc ih =>
    obtain ⟨⟨text', rest'⟩, hbody, heq⟩ := Option.map_eq_some_iff.1 h
    obtain ⟨rfl, rfl⟩ := Prod.mk.inj heq
    obtain ⟨rfl, hrest⟩ := ih hbody
    exact ⟨by rw [doubleQuotes_cons hc, List.cons_append], hrest⟩

end

theorem toList_quoted (text : String) :
    (quoted text).toList = '\x27' :: doubleQuotes text.toList ++ ['\x27'] := by
  simp [quoted]

/-- What is read as a literal is exactly what is written as one, as far as the text behind it does
not start with a quote. -/
theorem literal_eq_some_iff {cs rest : List Char} {text : String} :
    literal cs = some (text, rest) ↔
      cs = (quoted text).toList ++ rest ∧ rest.head? ≠ some '\x27' := by
  constructor
  · intro h
    simp only [literal, Option.bind_eq_bind, Option.bind_eq_some_iff, skipSymbol_eq_some_iff,
      Option.some.injEq, Prod.mk.injEq] at h
    obtain ⟨_, rfl, ⟨text', rest'⟩, hbody, rfl, rfl⟩ := h
    obtain ⟨rfl, hrest⟩ := eq_append_of_literalBody hbody
    simp [toList_quoted, hrest]
  · rintro ⟨rfl, hrest⟩
    have hbody := literalBody_append hrest text.toList
    simp [literal, toList_quoted, skipSymbol, hbody]

end Overlay.Text
