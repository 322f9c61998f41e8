/-!
# Coloured text

Text for a terminal is painted by a control sequence before it and one that resets the terminal
behind it. Painted text may itself hold the reset sequence; the style then starts again after it.
-/

namespace Overlay.CommandLine

/-- How a text is painted. -/
inductive Style where
  | red
  | green
  | yellow
  | cyan
  | white
  | boldRed
  | boldGreen
  | boldWhite
  | dimmed
  deriving DecidableEq, Repr

/-- The parameters of the control sequence of a style. -/
def Style.parameters : Style → String
  | red => "31"
  | green => "32"
  | yellow => "33"
  | cyan => "36"
  | white => "37"
  | boldRed => "1;31"
  | boldGreen => "1;32"
  | boldWhite => "1;37"
  | dimmed => "2"

/-- The sequence that starts a style. -/
def Style.start (s : Style) : String :=
  "\x1b[" ++ s.parameters ++ "m"

/-- The sequence that resets the terminal. -/
def reset : String := "\x1b[0m"

/-- The text with `start` behind each reset sequence. -/
def restart (start : List Char) : List Char → List Char
  | '\x1b' :: '[' :: '0' :: 'm' :: cs => '\x1b' :: '[' :: '0' :: 'm' :: (start ++ restart start cs)
  | c :: cs => c :: restart start cs
  | [] => []

/-- A text in a style, or as it is where no colours are wanted. -/
def paint (colours : Bool) (style : Style) (text : String) : String :=
  if colours then
    style.start ++ String.ofList (restart style.start.toList text.toList) ++ reset
  else text

end Overlay.CommandLine
