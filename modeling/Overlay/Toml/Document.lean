import Overlay.Toml.Scalar
import Overlay.Toml.Table

/-!
# TOML documents

A document is a sequence of lines, each an entry `key = value`, a header `[key]` or `[[key]]`, or
empty; values may run over several lines. `read` gives the entries of the document's root, or
nothing if the text is no document.
-/

namespace Overlay.Toml

open Overlay.Text

/-- Nothing is nested, and no key is dotted, to this depth. -/
def depthLimit : Nat := 80

/-! ### Keys -/

/-- The characters of keys without quotes. -/
def isKeyChar (c : Char) : Bool :=
  c.isAlphanum || c == '_' || c == '-'

/-- A key without quotes. -/
def bareKey : Phrase String := fun cs =>
  match cs.takeWhile isKeyChar with
  | [] => none
  | key => some (String.ofList key, cs.dropWhile isKeyChar)

/-- A part of a dotted key with the spaces around it. -/
def keyPart : Phrase String := fun cs => do
  let cs := skipSpaces cs
  let (key, cs) ← basicString cs <|> literalString cs <|> bareKey cs
  some (key, skipSpaces cs)

/-- A dotted key: the path before its last part, and that part. -/
def dottedKey : Phrase (List String × String) := fun cs => do
  let (first, cs) ← keyPart cs
  let (others, cs) := many (fun cs => do keyPart (← skipSymbol '.' cs)) cs
  let parts := first :: others
  if parts.length < depthLimit then some ((parts.dropLast, parts.getLast?.getD first), cs) else none

/-! ### Values -/

/-- An entry `key = value` with the spaces around the value, and `value` as given. -/
def entry (value : Phrase Value) : Phrase ((List String × String) × Value) := fun cs => do
  let (key, cs) ← dottedKey cs
  let cs ← skipSymbol '=' cs
  let (v, cs) ← value (skipSpaces cs)
  some ((key, v), skipSpaces cs)

/-- The items of a list that commas separate. -/
def separated {α : Type} (item : Phrase α) : Phrase (List α) := fun cs =>
  match item cs with
  | none => some ([], cs)
  | some (first, cs) =>
    let (others, cs) := many (fun cs => do item (← skipSymbol ',' cs)) cs
    some (first :: others, cs)

/-- An array. A comma may stand behind its last item, and line breaks and comments around each. -/
def array (value : Phrase Value) : Phrase Value := fun cs => do
  let cs ← skipSymbol '[' cs
  let (items, cs) ← separated
    (fun cs => (value (skipFiller cs)).map fun (v, cs) => (v, skipFiller cs)) cs
  let cs := if items.isEmpty then cs else (skipSymbol ',' cs).getD cs
  let cs ← skipSymbol ']' (skipFiller cs)
  some (.other, cs)

/-- A table on one line, in which no name is given twice. -/
def inlineTable (value : Phrase Value) : Phrase Value := fun cs => do
  let cs ← skipSymbol '{' cs
  let (items, cs) ← separated (entry value) cs
  let cs ← skipSymbol '}' (skipSpaces cs)
  let _ ← items.foldlM (fun entries ((path, key), v) => Entries.put path key v .header entries) []
  some (.other, cs)

/-- A value in which arrays and tables are nested at most `depth` deep. -/
def value : Nat → Phrase Value
  | 0 => fun cs =>
    (anyString cs).map (fun (s, cs) => (.string s, cs)) <|>
      (scalar cs).map (fun (_, cs) => (.other, cs))
  | depth + 1 => fun cs =>
    (anyString cs).map (fun (s, cs) => (.string s, cs)) <|>
      array (value depth) cs <|> inlineTable (value depth) cs <|>
      (scalar cs).map (fun (_, cs) => (.other, cs))

/-! ### Lines -/

/-- A line of a document. -/
inductive Line where
  | empty
  | entry (path : List String) (key : String) (value : Value)
  | table (path : List String) (key : String)
  | element (path : List String) (key : String)

/-- A header between the given brackets. -/
def header (opening closing : List Char) : Phrase (List String × String) := fun cs => do
  if !opening.isPrefixOf cs then none
  let (key, cs) ← dottedKey (cs.drop opening.length)
  if closing.isPrefixOf cs then some (key, cs.drop closing.length) else none

/-- What a line holds before its end. -/
def lineContent (cs : List Char) : Option (Line × List Char) :=
  if ['[', '['].isPrefixOf cs then
    (header ['[', '['] [']', ']'] cs).map fun ((path, key), cs) => (.element path key, cs)
  else if ['['].isPrefixOf cs then
    (header ['['] [']'] cs).map fun ((path, key), cs) => (.table path key, cs)
  else if cs.isEmpty || (cs.head?.any fun c => c == '#' || c == '\n' || c == '\r') then
    some (.empty, cs)
  else
    (entry (value (depthLimit - 1)) cs).map fun (((path, key), v), cs) => (.entry path key v, cs)

/-- A line with the spaces around it and its end. -/
def line : Phrase Line := fun cs => do
  let (content, cs) ← lineContent (skipSpaces cs)
  some (content, ← skipLineEnd cs)

/-! ### Documents -/

/-- A document in the course of reading: its entries and the open table. -/
structure Progress where
  entries : Entries
  header : List String

/-- Takes in a line. -/
def Progress.step (p : Progress) : Line → Option Progress
  | .empty => some p
  | .entry path key v => do
    some { p with entries := ← p.entries.putUnder p.header path key v }
  | .table path key => do
    some { entries := ← p.entries.openTable path key, header := path ++ [key] }
  | .element path key => do
    some { entries := ← p.entries.openElement path key, header := path ++ [key] }

/-- The text without a byte order mark at its start. -/
def dropByteOrderMark : List Char → List Char
  | c :: cs => if c = '\ufeff' then cs else c :: cs
  | [] => []

/-- The entries of the root of a document. -/
def read (text : String) : Option Entries :=
  match many line (dropByteOrderMark text.toList) with
  | (lines, []) => do
    let p ← lines.foldlM Progress.step { entries := [], header := [] }
    some p.entries
  | _ => none

end Overlay.Toml
