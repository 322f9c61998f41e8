import Mathlib.Data.List.Infix
import Overlay.Proofs.SchemaText.Phrase
import Overlay.Text.Line

/-!
# Cutting texts by bytes

A text is cut behind a number of bytes. If that position is inside a character the program ends
(`Abort`). A keyword that is spelled at the start of a text is cut off behind as many bytes as it
has; this may be another number of characters, since KELVIN SIGN counts as `k` and takes three
bytes. It does not cut a character if every `k` of the keyword is its third letter from the end
(`boundary_of_spells`). A comment is cut off at the position of its mark (`stripComment_eq`).
-/

namespace Overlay.Text

open Overlay.SchemaText.Grammar

/-- The program ends because a text was to be cut inside a character. -/
inductive Abort where
  | insideCharacter
  deriving DecidableEq, Repr

/-- Whole characters make up the first `n` bytes of a text. -/
def Boundary (n : Nat) (cs : List Char) : Prop :=
  ∃ front rest, cs = front ++ rest ∧ utf8Length front = n

/-- The first `n` bytes of a text and the rest, if that position is no inside of a character. -/
def cut? : Nat → List Char → Option (List Char × List Char)
  | 0, cs => some ([], cs)
  | _ + 1, [] => none
  | n + 1, c :: cs =>
    if c.utf8Size ≤ n + 1 then
      (cut? (n + 1 - c.utf8Size) cs).map fun (front, rest) => (c :: front, rest)
    else none

/-- The first `n` bytes of a text and the rest. -/
def cut (n : Nat) (cs : List Char) : Except Abort (List Char × List Char) :=
  match cut? n cs with
  | some parts => .ok parts
  | none => .error .insideCharacter

section

variable {n : Nat} {c : Char} {cs word front rest : List Char}

theorem cut?_eq_some_iff :
    cut? n cs = some (front, rest) ↔ cs = front ++ rest ∧ utf8Length front = n := by
  fun_induction cut? n cs generalizing front with
  | case1 cs =>
    rw [Option.some.injEq, Prod.mk.injEq]
    constructor
    · rintro ⟨rfl, rfl⟩
      exact ⟨rfl, rfl⟩
    · rintro ⟨rfl, hfront⟩
      cases front with
      | nil => exact ⟨rfl, rfl⟩
      | cons c front =>
        have hsize := c.utf8Size_pos
        rw [utf8Length] at hfront
        omega
  | case2 n =>
    simp only [reduceCtorEq, false_iff, not_and]
    intro h hfront
    obtain ⟨rfl, rfl⟩ := List.append_eq_nil_iff.1 h.symm
    cases hfront
  | case3 n c cs hsize ih =>
    rw [Option.map_eq_some_iff]
    constructor
    · rintro ⟨⟨front', rest'⟩, hcut, heq⟩
      obtain ⟨rfl, rfl⟩ := Prod.mk.inj heq
      obtain ⟨rfl, hfront⟩ := ih.1 hcut
      refine ⟨rfl, ?_⟩
      rw [utf8Length]
      omega
    · rintro ⟨hcs, hfront⟩
      cases front with
      | nil => cases hfront
      | cons d front =>
        obtain ⟨rfl, rfl⟩ := List.cons.inj hcs
        rw [utf8Length] at hfront
        exact ⟨(front, rest), ih.2 ⟨rfl, by omega⟩, rfl⟩
  | case4 n c cs hsize =>
    simp only [reduceCtorEq, false_iff, not_and]
    intro hcs hfront
    cases front with
    | nil => cases hfront
    | cons d front =>
      obtain ⟨rfl, rfl⟩ := List.cons.inj hcs
      rw [utf8Length] at hfront
      omega

theorem boundary_iff : Boundary n cs ↔ ∃ parts, cut? n cs = some parts := by
  simp only [Boundary, Prod.exists, cut?_eq_some_iff]

theorem cut_eq_ok (hcs : cs = front ++ rest) (hn : utf8Length front = n) :
    cut n cs = .ok (front, rest) := by
  rw [cut, cut?_eq_some_iff.2 ⟨hcs, hn⟩]

theorem dropBytes_eq (n : Nat) (cs : List Char) : dropBytes n cs = (cut? n cs).map Prod.snd := by
  fun_induction cut? n cs with
  | case1 cs =>
    rw [dropBytes]
    rfl
  | case2 n => rfl
  | case3 n c cs hsize ih =>
    rw [dropBytes, if_pos hsize, ih, Option.map_map]
    rfl
  | case4 n c cs hsize =>
    rw [dropBytes, if_neg hsize]
    rfl

/-! ### Keywords -/

/-- Behind every `k` of the word there are two more letters, so that KELVIN SIGN in its place takes
the bytes up to the end of the word. -/
def FitsKelvinSign (word : List Char) : Prop :=
  ∀ tail ∈ word.tails, tail.head? = some 'k' → tail.length = 3

instance (word : List Char) : Decidable (FitsKelvinSign word) :=
  List.decidableBAll _ word.tails

theorem utf8Length_of_ascii (h : Ascii word) : utf8Length word = word.length := by
  induction word with
  | nil => rfl
  | cons w word ih =>
    obtain ⟨hw, hword⟩ := List.forall_mem_cons.1 h
    rw [utf8Length_cons hw, ih hword, List.length_cons]

/-- The number of bytes that a keyword has is a boundary of every text that starts with it. -/
theorem boundary_of_spells (hword : Ascii word) (hfits : FitsKelvinSign word)
    (h : spells word cs = true) : Boundary (utf8Length word) cs := by
  obtain ⟨hagrees, hbytes⟩ := Bool.and_eq_true_iff.1 h
  rw [hasBytes_iff] at hbytes
  clear h
  induction word generalizing cs with
  | nil => exact ⟨[], cs, rfl, rfl⟩
  | cons w word ih =>
    obtain ⟨hw, hword'⟩ := List.forall_mem_cons.1 hword
    rw [FitsKelvinSign, List.tails_cons, List.forall_mem_cons] at hfits
    obtain ⟨hfirst, hfits⟩ := hfits
    cases cs with
    | nil =>
      rw [utf8Length_cons hw, utf8Length] at hbytes
      omega
    | cons c cs =>
      rw [agrees_cons_cons, Bool.and_eq_true, beq_iff_eq] at hagrees
      obtain ⟨hletter, hagrees⟩ := hagrees
      by_cases hc : c = kelvinSign
      · subst hc
        -- Nothing behind it belongs to the keyword.
        obtain rfl : w = 'k' := hletter.symm
        have hlength : ('k' :: word).length = 3 := hfirst rfl
        refine ⟨[kelvinSign], cs, rfl, ?_⟩
        rw [utf8Length_of_ascii hword, hlength]
        decide
      · have hlower : c.toLower = w := (lowerLetter_eq_iff hw fun _ => hc).1 hletter
        have hsize : c.utf8Size = 1 := utf8Size_of_toLower (hlower ▸ hw)
        rw [utf8Length_cons hw, utf8Length_cons hsize] at hbytes
        obtain ⟨front, rest, rfl, hfront⟩ := ih hword' hfits hagrees (by omega)
        refine ⟨c :: front, rest, rfl, ?_⟩
        rw [utf8Length_cons hw, utf8Length_cons hsize, hfront]

/-! ### Comments -/

/-- The position in bytes of the first place where `mark` stands. -/
def find? (mark : List Char) : List Char → Option Nat
  | [] => none
  | c :: cs => if mark.isPrefixOf (c :: cs) then some 0 else (find? mark cs).map (c.utf8Size + ·)

/-- The first of the positions that there are. -/
def earliest (a b : Option Nat) : Option Nat :=
  ([a, b].filterMap id).min?

/-- The position in bytes of the first mark of a comment. -/
def commentStart? (line : List Char) : Option Nat :=
  earliest (find? ['#'] line) (find? ['-', '-'] line)

/-- The part of a line before its comment, cut off by its position. -/
def stripComment (line : List Char) : Except Abort (List Char) :=
  match commentStart? line with
  | none => .ok line
  | some n => (cut n line).map Prod.fst

theorem earliest_zero_left (b : Option Nat) : earliest (some 0) b = some 0 := by
  cases b <;> simp [earliest]

theorem earliest_zero_right (a : Option Nat) : earliest a (some 0) = some 0 := by
  cases a <;> simp [earliest]

theorem earliest_map_add (a b : Option Nat) (n : Nat) :
    earliest (a.map (n + ·)) (b.map (n + ·)) = (earliest a b).map (n + ·) := by
  cases a <;> cases b <;> simp [earliest, Nat.add_min_add_left]

theorem find?_cons_of_not {mark : List Char} (h : mark.isPrefixOf (c :: cs) = false) :
    find? mark (c :: cs) = (find? mark cs).map (c.utf8Size + ·) := by
  rw [find?, h]
  rfl

/-- What a line has before its comment ends at the position of its first mark. -/
theorem commentStart?_eq (line : List Char) :
    commentStart? line = none ∧ beforeComment line = line ∨
      ∃ rest, commentStart? line = some (utf8Length (beforeComment line)) ∧
        line = beforeComment line ++ rest := by
  induction line with
  | nil => exact .inl ⟨rfl, rfl⟩
  | cons c cs ih =>
    by_cases hhash : c = '#'
    · subst hhash
      exact .inr ⟨'#' :: cs, earliest_zero_left _, rfl⟩
    by_cases hdash : ∃ tail, c = '-' ∧ cs = '-' :: tail
    · obtain ⟨tail, rfl, rfl⟩ := hdash
      exact .inr ⟨'-' :: '-' :: tail, earliest_zero_right _, rfl⟩
    have hnotHash : ['#'].isPrefixOf (c :: cs) = false := by
      rw [Bool.eq_false_iff, Ne, List.isPrefixOf_iff_prefix, List.cons_prefix_cons]
      exact fun hprefix => hhash hprefix.1.symm
    have hnotDash : ['-', '-'].isPrefixOf (c :: cs) = false := by
      rw [Bool.eq_false_iff, Ne, List.isPrefixOf_iff_prefix]
      rintro ⟨tail, htail⟩
      obtain ⟨rfl, rfl⟩ := List.cons.inj htail
      exact hdash ⟨tail, rfl, rfl⟩
    have hbefore : beforeComment (c :: cs) = c :: beforeComment cs := by
      rw [beforeComment]
      · exact hhash
      · exact fun tail hc hcs => hdash ⟨tail, hc, hcs⟩
    rw [hbefore, commentStart?, find?_cons_of_not hnotHash, find?_cons_of_not hnotDash,
      earliest_map_add, ← commentStart?]
    obtain ⟨hnone, hline⟩ | ⟨rest, hsome, hline⟩ := ih
    · exact .inl ⟨by rw [hnone, Option.map_none], by rw [hline]⟩
    · refine .inr ⟨rest, by rw [hsome, Option.map_some, utf8Length], ?_⟩
      rw [List.cons_append, ← hline]

/-- The position of a comment is a boundary of its line. -/
theorem boundary_of_commentStart? {line : List Char} (h : commentStart? line = some n) :
    Boundary n line := by
  obtain ⟨hnone, -⟩ | ⟨rest, hsome, hline⟩ := commentStart?_eq line
  · rw [hnone] at h
    cases h
  · exact ⟨beforeComment line, rest, hline, Option.some.inj (hsome.symm.trans h)⟩

theorem stripComment_eq (line : List Char) : stripComment line = .ok (beforeComment line) := by
  rw [stripComment]
  obtain ⟨hnone, hline⟩ | ⟨rest, hsome, hline⟩ := commentStart?_eq line
  · rw [hnone, hline]
  · rw [hsome]
    exact congrArg (Except.map Prod.fst) (cut_eq_ok hline rfl)

end

end Overlay.Text
