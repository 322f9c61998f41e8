import Overlay.Text.Phrase

/-!
# Blanks and comments of TOML

What may stand between the tokens of a TOML document: spaces and tabs, line breaks, and comments
that run to the end of a line.
-/

namespace Overlay.Toml

open Overlay.Text

/-- The characters allowed in comments and between quotes: tab and everything that is no ASCII
control character. -/
def isPlain (c : Char) : Bool :=
  c == '\t' || (0x20 ≤ c.toNat && c.toNat != 0x7F)

/-- The text after a line break `\n` or `\r\n`. -/
def skipNewline : List Char → Option (List Char)
  | '\n' :: cs => some cs
  | '\r' :: '\n' :: cs => some cs
  | _ => none

/-- The text after a comment, if it starts with one. -/
def skipComment : List Char → List Char
  | '#' :: cs => cs.dropWhile isPlain
  | cs => cs

/-- The text after the end of a line: spaces, a comment, and a line break or the end of the text. -/
def skipLineEnd (cs : List Char) : Option (List Char) :=
  match skipComment (skipSpaces cs) with
  | [] => some []
  | cs => skipNewline cs

/-- A stretch of spaces and tabs, or the rest of a line with its line break. -/
def filler : Phrase Unit := fun cs =>
  match skipGap cs with
  | some cs => some ((), cs)
  | none => (skipNewline (skipComment cs)).map ((), ·)

/-- The text after any spaces, comments and line breaks. -/
def skipFiller (cs : List Char) : List Char :=
  (many filler cs).2

end Overlay.Toml
