import Overlay.Toml.Blank

/-!
# Strings of TOML

The four kinds of strings: basic strings between double quotes, in which a backslash starts an
escape, literal strings between single quotes, in which nothing is escaped, and for each the form
between three quotes that may hold line breaks.
-/

namespace Overlay.Toml

open Overlay.Text

/-- The single quote. -/
def apostrophe : Char := '\x27'

/-- The value of a hexadecimal digit. -/
def hexValue? (c : Char) : Option Nat :=
  let n := c.toNat
  if 0x30 ≤ n && n ≤ 0x39 then some (n - 0x30)
  else if 0x41 ≤ n && n ≤ 0x46 then some (n - 0x37)
  else if 0x61 ≤ n && n ≤ 0x66 then some (n - 0x57)
  else none

/-- The number written by hexadecimal digits. -/
def hexNumber? (digits : List Char) : Option Nat :=
  digits.foldlM (fun n c => (hexValue? c).map (16 * n + ·)) 0

/-- The character whose code point the next `count` hexadecimal digits give. -/
def codePoint (count : Nat) : Phrase Char := fun cs =>
  if cs.length < count then none
  else do
    let n ← hexNumber? (cs.take count)
    if n.isValidChar then some (Char.ofNat n, cs.drop count) else none

/-- The character that an escape stands for, read behind its backslash. -/
def escape : Phrase Char
  | 'b' :: cs => some ('\x08', cs)
  | 't' :: cs => some ('\t', cs)
  | 'n' :: cs => some ('\n', cs)
  | 'f' :: cs => some ('\x0c', cs)
  | 'r' :: cs => some ('\r', cs)
  | '"' :: cs => some ('"', cs)
  | '\\' :: cs => some ('\\', cs)
  | 'u' :: cs => codePoint 4 cs
  | 'U' :: cs => codePoint 8 cs
  | _ => none

/-- A character of a basic string. -/
def basicChar : Phrase Char
  | [] => none
  | '\\' :: cs => escape cs
  | c :: cs => if isPlain c && c != '"' then some (c, cs) else none

/-- A character of a literal string. -/
def literalChar : Phrase Char
  | [] => none
  | c :: cs => if isPlain c && c != apostrophe then some (c, cs) else none

/-- A string between single occurrences of `quote`. -/
def shortString (quote : Char) (char : Phrase Char) : Phrase String := fun cs => do
  let (content, cs) := many char (← skipSymbol quote cs)
  let cs ← skipSymbol quote cs
  some (String.ofList content, cs)

/-- A basic string on one line. -/
def basicString : Phrase String := shortString '"' basicChar

/-- A literal string on one line. -/
def literalString : Phrase String := shortString apostrophe literalChar

/-! ### Strings between three quotes -/

/-- One or two occurrences of `quote` that no third follows. -/
def quoteRun (quote : Char) : Phrase (List Char) := fun cs =>
  match cs.takeWhile (· == quote) with
  | [] => none
  | run => if run.length ≤ 2 then some (run, cs.drop run.length) else none

/-- A line break between three quotes, which stands for `\n`. -/
def lineBreak : Phrase (List Char) := fun cs =>
  (skipNewline cs).map (['\n'], ·)

/-- A joint of two lines, which stands for nothing. -/
def joint : Phrase (List Char)
  | '\\' :: cs =>
    (skipNewline (skipSpaces cs)).map fun cs =>
      ([], (many (fun cs => (skipGap cs <|> skipNewline cs).map ((), ·)) cs).2)
  | _ => none

/-- A piece of a basic string between three quotes. -/
def basicPiece : Phrase (List Char) := fun cs =>
  joint cs <|> (basicChar cs).map (fun (c, cs) => ([c], cs)) <|> lineBreak cs <|> quoteRun '"' cs

/-- A piece of a literal string between three quotes. -/
def literalPiece : Phrase (List Char) := fun cs =>
  (literalChar cs).map (fun (c, cs) => ([c], cs)) <|> lineBreak cs <|> quoteRun apostrophe cs

/-- The end of a string between three quotes, before which up to two quotes belong to the string. -/
def closingQuotes (quote : Char) : Phrase (List Char) := fun cs =>
  let run := (cs.take 5).takeWhile (· == quote)
  if run.length < 3 then none else some (run.drop 3, cs.drop run.length)

/-- A string between three occurrences of `quote`. A line break at its very start is dropped. -/
def longString (quote : Char) (piece : Phrase (List Char)) : Phrase String := fun cs => do
  let cs ← skipSymbol quote cs
  let cs ← skipSymbol quote cs
  let cs ← skipSymbol quote cs
  let (pieces, cs) := many piece ((skipNewline cs).getD cs)
  let (quotes, cs) ← closingQuotes quote cs
  some (String.ofList (pieces.flatten ++ quotes), cs)

/-- A string of any kind. -/
def anyString : Phrase String := fun cs =>
  longString '"' basicPiece cs <|> basicString cs <|>
    longString apostrophe literalPiece cs <|> literalString cs

end Overlay.Toml
