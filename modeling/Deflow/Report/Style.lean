/-!
# Styled text

Colours and bold letters for terminals, by the usual escape sequences. On a
plain output the same text appears without them.
-/

namespace Deflow.Report

/-- The colours in use. -/
inductive Color where
  | red
  | green
  | yellow
  | blue
deriving DecidableEq, Repr

/-- The digit of a colour in escape sequences. -/
def Color.digit : Color → String
  | .red => "1"
  | .green => "2"
  | .yellow => "3"
  | .blue => "4"

/-- How a piece of text looks. -/
structure Style where
  bold : Bool := false
  color : Option Color := none
deriving DecidableEq, Repr

/-- The escape sequence with the given arguments. -/
def escape (arguments : String) : String :=
  "\x1b[" ++ arguments ++ "m"

/-- What ends a style. -/
def reset (colored : Bool) : String :=
  if colored then escape "0" else ""

/-- What begins a style. -/
def Style.set (style : Style) (colored : Bool) : String :=
  if colored then
    reset true ++ (if style.bold then escape "1" else "") ++
      match style.color with
      | none => ""
      | some color => escape ("3" ++ color.digit)
  else
    ""

/-- A text in a style. -/
def Style.paint (style : Style) (colored : Bool) (text : String) : String :=
  style.set colored ++ text ++ reset colored

end Deflow.Report
