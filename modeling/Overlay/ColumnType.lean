import Overlay.Text.Case

/-!
# Column types

The types that a column can have, their names in generated text, the further spellings under which
they are read, and which of them can identify a row.
-/

namespace Overlay

/-- The type of a column. -/
inductive ColumnType where
  | string
  | char
  | boolean
  | byte
  | short
  | integer
  | long
  | bigInteger
  | float
  | double
  | bigDecimal
  | date
  | time
  | timestamp
  | blob
  | clob
  | xml
  | varbinary
  | json
  | geometry
  | object
  deriving DecidableEq, Repr, Inhabited

namespace ColumnType

/-- Every column type. -/
def all : List ColumnType :=
  [string, char, boolean, byte, short, integer, long, bigInteger, float, double, bigDecimal, date,
    time, timestamp, blob, clob, xml, varbinary, json, geometry, object]

theorem mem_all (t : ColumnType) : t ∈ all := by
  cases t <;> decide

/-- The name of a type in generated text. -/
def name : ColumnType → String
  | string => "string"
  | char => "char"
  | boolean => "boolean"
  | byte => "byte"
  | short => "short"
  | integer => "integer"
  | long => "long"
  | bigInteger => "biginteger"
  | float => "float"
  | double => "double"
  | bigDecimal => "bigdecimal"
  | date => "date"
  | time => "time"
  | timestamp => "timestamp"
  | blob => "blob"
  | clob => "clob"
  | xml => "xml"
  | varbinary => "varbinary"
  | json => "json"
  | geometry => "geometry"
  | object => "object"

/-- The lowercase words that denote a type besides its name. -/
def aliases : ColumnType → List String
  | string => ["varchar", "text"]
  | char => ["character"]
  | boolean => ["bool"]
  | byte => ["tinyint"]
  | short => ["smallint"]
  | integer => ["int"]
  | long => ["bigint"]
  | float => ["real"]
  | bigDecimal => ["decimal", "numeric"]
  | varbinary => ["bytes"]
  | _ => []

/-- The type with exactly this name. -/
def ofName? (name : String) : Option ColumnType :=
  all.find? fun t => t.name == name

/-- The type that a word denotes, by its name or an alias, in letters of any case. -/
def ofWord? (word : String) : Option ColumnType :=
  let lower := word.map Text.lowerLetter
  all.find? fun t => t.name == lower || t.aliases.contains lower

/-- Whether values of this type can be compared, so that a key may consist of them. Large objects
and opaque values cannot. -/
def canIdentifyRow : ColumnType → Bool
  | blob | clob | xml | json | geometry | object => false
  | _ => true

end ColumnType
end Overlay
