import Overlay.Toml.Quote

/-!
# Numbers, truth values, dates and times of TOML

A value that is no string, array or table is one run of letters, digits and the signs `+`, `-`, `_`,
`.` and `:`; only a date and a time of day may be two such runs with a space between them. Here is
decided which runs are values. An integer has to fit into 64 bits with sign, and a decimal number
must not be so large that it rounds to infinity in binary64.
-/

namespace Overlay.Toml

open Overlay.Text

/-! ### Digits -/

/-- The ten digits. -/
def isDigit (c : Char) : Bool :=
  '0' ≤ c && c ≤ '9'

/-- The digits of a run in which single underscores may stand between two digits. -/
def plainDigits (isDigit : Char → Bool) : List Char → Option (List Char)
  | [] => none
  | [c] => if isDigit c then some [c] else none
  | c :: '_' :: cs => if isDigit c then (plainDigits isDigit cs).map (c :: ·) else none
  | c :: cs => if isDigit c then (plainDigits isDigit cs).map (c :: ·) else none

/-- The number written by digits in a base up to sixteen. -/
def digitsValue (base : Nat) (digits : List Char) : Nat :=
  digits.foldl (fun n c => base * n + (hexValue? c).getD 0) 0

/-- Whether a digit belongs to a base up to sixteen. -/
def isDigitOf (base : Nat) (c : Char) : Bool :=
  (hexValue? c).any (· < base)

/-- Whether a sign stands first, and if so whether it is a minus; and the rest. -/
def splitSign : List Char → Bool × List Char
  | '-' :: cs => (true, cs)
  | '+' :: cs => (false, cs)
  | cs => (false, cs)

/-! ### Integers -/

/-- The digits of a decimal integer without sign: no zero in front of others. -/
def decimalDigits (cs : List Char) : Option (List Char) :=
  if cs.head? = some '0' && cs.length != 1 then none else plainDigits isDigit cs

/-- Whether a run is a decimal integer of 64 bits with sign. -/
def isDecimalInteger (cs : List Char) : Bool :=
  let (negative, digits) := splitSign cs
  (decimalDigits digits).any fun digits =>
    digitsValue 10 digits ≤ if negative then Nat.pow 2 63 else Nat.pow 2 63 - 1

/-- Whether a run is an integer in a base other than ten, which takes no sign. -/
def isBasedInteger : List Char → Bool
  | '0' :: mark :: cs =>
    let base := if mark = 'x' then 16 else if mark = 'o' then 8 else if mark = 'b' then 2 else 0
    (plainDigits (isDigitOf base) cs).any fun digits => digitsValue base digits < Nat.pow 2 63
  | _ => false

/-! ### Decimal numbers -/

/-- Whether `mantissa * 10 ^ exponent` rounds to a finite binary64 number. From
`2 ^ 1024 - 2 ^ 970` on the nearest number is infinity. -/
def roundsToFinite (mantissa : Nat) (exponent : Int) : Bool :=
  let bound := Nat.pow 2 1024 - Nat.pow 2 970
  let size := exponent + (toString mantissa).length
  if mantissa = 0 || size ≤ 308 then true
  else if size > 309 then false
  else if 0 ≤ exponent then mantissa * Nat.pow 10 exponent.toNat < bound
  else mantissa < bound * Nat.pow 10 (-exponent).toNat

/-- The value of the exponent part of a decimal number, which may be missing. -/
def exponentPart : List Char → Option Int
  | [] => some 0
  | e :: cs =>
    if e = 'e' || e = 'E' then
      let (negative, digits) := splitSign cs
      (plainDigits isDigit digits).map fun digits =>
        if negative then -(digitsValue 10 digits : Int) else digitsValue 10 digits
    else none

/-- The digits of the fraction part of a decimal number, which may be missing, and the rest. -/
def fractionPart : Phrase (List Char)
  | '.' :: cs =>
    let isPart (c : Char) := isDigit c || c == '_'
    (plainDigits isDigit (cs.takeWhile isPart)).map (·, cs.dropWhile isPart)
  | cs => some ([], cs)

/-- Whether a run is a decimal number with a fraction or an exponent. -/
def isDecimalNumber (cs : List Char) : Bool :=
  let (negative, cs) := splitSign cs
  let isPart (c : Char) := isDigit c || c == '_'
  let digits := do
    let integer ← decimalDigits (cs.takeWhile isPart)
    let rest := cs.dropWhile isPart
    if rest.isEmpty then none
    let (fraction, rest) ← fractionPart rest
    let exponent ← exponentPart rest
    some (digitsValue 10 (integer ++ fraction), exponent - fraction.length)
  digits.any fun (mantissa, exponent) => negative || roundsToFinite mantissa exponent

/-- Whether a run is one of the numbers that are written as words. -/
def isSpecialNumber (cs : List Char) : Bool :=
  let word := (splitSign cs).2
  word == ['i', 'n', 'f'] || word == ['n', 'a', 'n']

/-! ### Dates and times -/

/-- A number of exactly `count` digits. -/
def fixedNumber (count : Nat) : Phrase Nat := fun cs =>
  let digits := cs.take count
  if digits.length = count && digits.all isDigit then
    some (digitsValue 10 digits, cs.drop count)
  else none

/-- A number of two digits between two bounds. -/
def twoDigits (least greatest : Nat) : Phrase Nat := fun cs => do
  let (n, cs) ← fixedNumber 2 cs
  if least ≤ n && n ≤ greatest then some (n, cs) else none

/-- The number of days in a month. -/
def daysInMonth (year month : Nat) : Nat :=
  if month = 2 then
    if year % 4 = 0 && (year % 100 != 0 || year % 400 = 0) then 29 else 28
  else if month = 4 || month = 6 || month = 9 || month = 11 then 30
  else 31

/-- A day of the calendar, `YYYY-MM-DD`. -/
def date : Phrase Unit := fun cs => do
  let (year, cs) ← fixedNumber 4 cs
  let (month, cs) ← twoDigits 1 12 (← skipSymbol '-' cs)
  let (_, cs) ← twoDigits 1 (daysInMonth year month) (← skipSymbol '-' cs)
  some ((), cs)

/-- The text after a fraction of a second, if it starts with one. -/
def skipSecondFraction : List Char → List Char
  | '.' :: c :: cs => if isDigit c then cs.dropWhile isDigit else '.' :: c :: cs
  | cs => cs

/-- A time of day, `hh:mm:ss` with any number of further digits. -/
def time : Phrase Unit := fun cs => do
  let (_, cs) ← twoDigits 0 23 cs
  let (_, cs) ← twoDigits 0 59 (← skipSymbol ':' cs)
  let (_, cs) ← twoDigits 0 60 (← skipSymbol ':' cs)
  some ((), skipSecondFraction cs)

/-- A distance from Greenwich time, `Z` or a sign with hours and minutes. -/
def offset : Phrase Unit
  | 'Z' :: cs => some ((), cs)
  | 'z' :: cs => some ((), cs)
  | sign :: cs =>
    if sign = '+' || sign = '-' then do
      let (_, cs) ← twoDigits 0 23 cs
      let (_, cs) ← twoDigits 0 59 (← skipSymbol ':' cs)
      some ((), cs)
    else none
  | [] => none

/-- Whether a run is a time of day with an optional offset. -/
def isTimeWithOffset (cs : List Char) : Bool :=
  match time cs with
  | none => false
  | some (_, []) => true
  | some (_, rest) => (whole offset rest).isSome

/-- Whether a run is a date. -/
def isDate (cs : List Char) : Bool :=
  (whole date cs).isSome

/-- Whether a run is a date with a time of day behind the letter `T`. -/
def isDateTime (cs : List Char) : Bool :=
  match date cs with
  | some (_, mark :: rest) => (mark == 'T' || mark == 't') && isTimeWithOffset rest
  | _ => false

/-! ### Runs -/

/-- The characters of runs. -/
def isRunChar (c : Char) : Bool :=
  c.isAlphanum || c == '+' || c == '-' || c == '_' || c == '.' || c == ':'

/-- Whether a run is a value. -/
def isScalar (run : List Char) : Bool :=
  isDecimalInteger run || isBasedInteger run || isDecimalNumber run || isSpecialNumber run ||
    run == ['t', 'r', 'u', 'e'] || run == ['f', 'a', 'l', 's', 'e'] ||
    isDate run || isDateTime run || (whole time run).isSome

/-- A number, truth value, date or time. A time of day belongs to the date if one space stands
between them. -/
def scalar : Phrase Unit := fun cs =>
  let run := cs.takeWhile isRunChar
  let rest := cs.dropWhile isRunChar
  if !isScalar run then none
  else
    match rest with
    | ' ' :: more =>
      let next := more.takeWhile isRunChar
      if isDate run && isTimeWithOffset next then some ((), more.dropWhile isRunChar)
      else some ((), rest)
    | _ => some ((), rest)

end Overlay.Toml
