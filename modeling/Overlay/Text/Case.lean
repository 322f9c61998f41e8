/-!
# Comparing without regard to case

Two comparisons are used. Names of schemas, tables and columns are compared up to the case of ASCII
letters (`sameName`). Keywords and type names are ASCII words that a text may spell with any
character whose lowercase form is the letter in question (`lowerLetter`).

A text starts with a keyword, an ASCII word in lower case, if the two agree in lowercase letters as
far as the shorter of them goes and the text is at least as long in UTF-8 bytes (`spells`). What
follows the keyword is the text after as many bytes as the keyword has (`afterKeyword`). For a text
of ASCII characters this is the usual test for a word at its start; KELVIN SIGN counts as `k` and
takes three bytes.
-/

namespace Overlay.Text

/-- Whether two names are equal up to the case of ASCII letters. -/
def sameName (a b : String) : Bool :=
  a.toLower == b.toLower

/-- The ASCII lowercase form of a character that has one, else the character. Beyond ASCII, KELVIN
SIGN is the only character whose lowercase form is an ASCII character. -/
def lowerLetter (c : Char) : Char :=
  if c = '\u212a' then 'k' else c.toLower

theorem sameName_iff {a b : String} : sameName a b = true ↔ a.toLower = b.toLower := by
  simp [sameName]

theorem sameName_refl (a : String) : sameName a a = true :=
  sameName_iff.2 rfl

theorem sameName_comm (a b : String) : sameName a b = sameName b a :=
  Bool.beq_comm

theorem sameName_trans {a b c : String} (hab : sameName a b = true) (hbc : sameName b c = true) :
    sameName a c = true :=
  sameName_iff.2 ((sameName_iff.1 hab).trans (sameName_iff.1 hbc))

/-! ### Keywords -/

/-- The number of bytes of a text in UTF-8. -/
def utf8Length : List Char → Nat
  | [] => 0
  | c :: cs => c.utf8Size + utf8Length cs

/-- Whether a text has at least `n` bytes. -/
def hasBytes : Nat → List Char → Bool
  | 0, _ => true
  | _ + 1, [] => false
  | n + 1, c :: cs => hasBytes (n + 1 - c.utf8Size) cs

/-- The text after its first `n` bytes, if that position is the end or the start of a character. -/
def dropBytes : Nat → List Char → Option (List Char)
  | 0, cs => some cs
  | _ + 1, [] => none
  | n + 1, c :: cs => if c.utf8Size ≤ n + 1 then dropBytes (n + 1 - c.utf8Size) cs else none

theorem hasBytes_iff {n : Nat} {cs : List Char} : hasBytes n cs = true ↔ n ≤ utf8Length cs := by
  fun_induction hasBytes n cs with
  | case1 => simp
  | case2 => simp [utf8Length]
  | case3 n c cs ih => simp only [ih, utf8Length]; omega

/-- Whether `cs` starts with `word` up to case, as far as the shorter of the two goes. -/
def agrees (word cs : List Char) : Bool :=
  (word.zip cs).all fun (w, c) => lowerLetter c == w

/-- Whether `cs` starts with the keyword `word`. -/
def spells (word cs : List Char) : Bool :=
  agrees word cs && hasBytes (utf8Length word) cs

/-- What follows the keyword `word` at the start of `cs`. -/
def afterKeyword (word cs : List Char) : Option (List Char) :=
  if spells word cs then dropBytes (utf8Length word) cs else none

end Overlay.Text
