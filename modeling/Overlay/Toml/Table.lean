/-!
# Tables of a TOML document

The tables of a document grow line by line: a header opens a table or a further element of an array
of tables, and each entry goes into the open table. A name may be given only once. Which tables a
line can still reach depends on how they came to be (`Origin`).
-/

namespace Overlay.Toml

/-- A value of a document. Of values that are no strings nothing is kept. -/
inductive Value where
  | string (text : String)
  | other
  deriving DecidableEq, Repr

/-- How a table came to be. -/
inductive Origin where
  /-- By a header of its own, as an element of an array of tables, or as the root. -/
  | header
  /-- By the header of a table inside it. -/
  | passed
  /-- By the dotted key of an entry. -/
  | dotted
  deriving DecidableEq, Repr

/-- What a name stands for in a table. Of an array of tables only the last element is kept, since no
line reaches another. -/
inductive Node where
  | value (value : Value)
  | table (origin : Origin) (entries : List (String × Node))
  | tables (last : List (String × Node))

/-- The names of a table and what they stand for. -/
abbrev Entries := List (String × Node)

namespace Entries

/-- What a name stands for. -/
def get? (entries : Entries) (key : String) : Option Node :=
  entries.lookup key

/-- The entries with what `key` stands for changed; a new name comes last. The change sees what the
name stands for so far and may refuse. -/
def alter (key : String) (change : Option Node → Option Node) : Entries → Option Entries
  | [] => (change none).map fun node => [(key, node)]
  | (k, node) :: entries =>
    if k = key then (change (some node)).map fun node => (k, node) :: entries
    else (alter key change entries).map fun entries => (k, node) :: entries

/-- The entries with the table at the end of a path changed. Missing tables on the way come to be
with the origin `kind`. The path of a dotted key leads through no table with a header of its own,
and no path leads through a value. -/
def descend (kind : Origin) (change : Origin → Entries → Option Entries) :
    List String → Origin → Entries → Option Entries
  | [], origin, entries => change origin entries
  | key :: path, _, entries =>
    entries.alter key fun
      | none => (descend kind change path kind []).map (.table kind)
      | some (.table origin inner) =>
        if kind = .dotted && origin = .header then none
        else (descend kind change path origin inner).map (.table origin)
      | some (.tables last) => (descend kind change path .header last).map .tables
      | some (.value _) => none

/-- The entries with a value under a new name. -/
def insertNew (key : String) (value : Value) (entries : Entries) : Option Entries :=
  entries.alter key fun
    | none => some (.value value)
    | some _ => none

/-- The entries of a table with a value under a dotted key. A key with dots ends in a table that
dotted keys have made. -/
def put (path : List String) (key : String) (value : Value) (origin : Origin)
    (entries : Entries) : Option Entries :=
  descend .dotted
    (fun origin entries =>
      if !path.isEmpty && origin != .dotted then none else insertNew key value entries)
    path origin entries

/-- The entries of a document in which the table at `header` is open, with a value under a dotted
key of that table. -/
def putUnder (header path : List String) (key : String) (value : Value) (entries : Entries) :
    Option Entries :=
  descend .passed (put path key value) header .header entries

/-- The entries of a document with a table under a header. A table that has only been passed may
still get its header. -/
def openTable (path : List String) (key : String) (entries : Entries) : Option Entries :=
  descend .passed
    (fun _ entries => entries.alter key fun
      | none => some (.table .header [])
      | some (.table .passed inner) => some (.table .header inner)
      | some _ => none)
    path .header entries

/-- The entries of a document with a further element of an array of tables. -/
def openElement (path : List String) (key : String) (entries : Entries) : Option Entries :=
  descend .passed
    (fun _ entries => entries.alter key fun
      | none => some (.tables [])
      | some (.tables _) => some (.tables [])
      | some _ => none)
    path .header entries

end Entries
end Overlay.Toml
