/-!
# White space and lines

`isBlank` is the Unicode property `White_Space`; `trim` takes the white space off both ends of a
text. Inside a line only two of these characters separate words (`isSpace`).

A text is read line by line. `lines` cuts it at its line breaks, `beforeComment` cuts a line at its
first comment mark, and `contentLines` gives what is left of each line, trimmed and with its
number, for the lines of which something is left.
-/

namespace Overlay.Text

/-! ### White space -/

/-- The characters with the Unicode property `White_Space`. -/
def isBlank (c : Char) : Bool :=
  let n := c.toNat
  (0x9 ≤ n && n ≤ 0xD) || n == 0x20 || n == 0x85 || n == 0xA0 || n == 0x1680 ||
    (0x2000 ≤ n && n ≤ 0x200A) || n == 0x2028 || n == 0x2029 || n == 0x202F || n == 0x205F ||
    n == 0x3000

/-- Space and tab, the characters that separate the words of a line. -/
def isSpace (c : Char) : Bool :=
  c == ' ' || c == '\t'

/-- The text without the white space in front of it and behind it. -/
def trim (cs : List Char) : List Char :=
  ((cs.dropWhile isBlank).reverse.dropWhile isBlank).reverse

/-! ### Lines -/

/-- The lines of a text, without their line breaks `\n` and `\r\n`. Nothing after the last line
break is no line. -/
def lines : List Char → List (List Char)
  | [] => []
  | '\n' :: cs => [] :: lines cs
  | '\r' :: '\n' :: cs => [] :: lines cs
  | c :: cs =>
    match lines cs with
    | [] => [[c]]
    | line :: rest => (c :: line) :: rest

/-- The part of a line before its first `#` or `--`. -/
def beforeComment : List Char → List Char
  | [] => []
  | '#' :: _ => []
  | '-' :: '-' :: _ => []
  | c :: cs => c :: beforeComment cs

/-- A line without its comment and without the white space around the rest. -/
def content (line : List Char) : List Char :=
  trim (beforeComment line)

/-- The contents of the lines that are not empty, each with the number of its line from 1. -/
def contentLines (text : List Char) : List (Nat × List Char) :=
  (((lines text).map content).zipIdx 1).filterMap fun (line, n) =>
    if line.isEmpty then none else some (n, line)

end Overlay.Text
