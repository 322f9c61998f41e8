/-!
# JSON

JSON values with objects in a fixed order of keys, and their text in the indented form: each entry
of an array or object on a line of its own, two blanks deeper than its brackets, and empty arrays
and objects on one line. Numbers are kept as they are written.
-/

namespace Overlay

/-- A JSON value. -/
inductive Json where
  | null
  | bool (value : Bool)
  | num (literal : String)
  | str (value : String)
  | arr (items : List Json)
  | obj (entries : List (String × Json))
  deriving Repr, Inhabited

namespace Json

/-- The array of strings. -/
def strings (items : List String) : Json :=
  .arr (items.map .str)

/-- A hexadecimal digit. -/
def hexDigit (n : Nat) : Char :=
  if n < 10 then Char.ofNat (0x30 + n) else Char.ofNat (0x57 + n)

/-- A character inside a string: quotes, backslashes and control characters are escaped. -/
def escape (c : Char) : List Char :=
  if c = '"' then ['\\', '"']
  else if c = '\\' then ['\\', '\\']
  else if c = '\x08' then ['\\', 'b']
  else if c = '\x0c' then ['\\', 'f']
  else if c = '\n' then ['\\', 'n']
  else if c = '\r' then ['\\', 'r']
  else if c = '\t' then ['\\', 't']
  else if c.toNat < 0x20 then
    ['\\', 'u', '0', '0', hexDigit (c.toNat / 16), hexDigit (c.toNat % 16)]
  else [c]

/-- A string between quotes. -/
def quote (s : String) : String :=
  "\"" ++ String.ofList (s.toList.flatMap escape) ++ "\""

/-- The start of a line at a depth. -/
def lineStart (depth : Nat) : String :=
  "\n" ++ String.ofList (List.replicate (2 * depth) ' ')

/-- Entries at a depth between brackets. -/
def bracketed (depth : Nat) (opening closing : String) : List String → String
  | [] => opening ++ closing
  | entries =>
    opening ++ String.intercalate "," (entries.map (lineStart (depth + 1) ++ ·)) ++
      lineStart depth ++ closing

mutual

/-- The text of a value at a depth. -/
def textAt (depth : Nat) : Json → String
  | null => "null"
  | bool value => if value then "true" else "false"
  | num literal => literal
  | str value => quote value
  | arr items => bracketed depth "[" "]" (itemTexts (depth + 1) items)
  | obj entries => bracketed depth "\x7b" "\x7d" (entryTexts (depth + 1) entries)

/-- The texts of the items of an array at their depth. -/
def itemTexts (depth : Nat) : List Json → List String
  | [] => []
  | item :: items => textAt depth item :: itemTexts depth items

/-- The text of an entry of an object at its depth. -/
def entryText (depth : Nat) : String × Json → String
  | (key, value) => quote key ++ ": " ++ textAt depth value

/-- The texts of the entries of an object at their depth. -/
def entryTexts (depth : Nat) : List (String × Json) → List String
  | [] => []
  | entry :: entries => entryText depth entry :: entryTexts depth entries

end

/-- The text of a value in the indented form. -/
def pretty (value : Json) : String :=
  value.textAt 0

end Json
end Overlay
