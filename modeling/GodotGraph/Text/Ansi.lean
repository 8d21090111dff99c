/-!
Contract: colours for terminals.

Owns: the styles of a report and the escape sequences that switch them on and off.
-/

set_option autoImplicit false

namespace GodotGraph.Text

inductive Style where
  | boldBlue
  | boldCyan
  | boldYellow
  | boldRed
  | green
  | purple
  | yellow
  | red
  | dimmed
  deriving DecidableEq, Repr

namespace Style

/-- The parameters of the sequence that switches the style on. -/
def code : Style → String
  | boldBlue => "1;34"
  | boldCyan => "1;36"
  | boldYellow => "1;33"
  | boldRed => "1;31"
  | green => "32"
  | purple => "35"
  | yellow => "33"
  | red => "31"
  | dimmed => "2"

end Style

def escape : Char := Char.ofNat 27

/-- The escape sequence with some parameters. -/
def sequence (code : String) : String :=
  String.ofList [escape, '['] ++ code ++ "m"

/-- The text in a style, if colours are wanted; it ends with all styles off. -/
def paint (colors : Bool) (style : Style) (text : String) : String :=
  if colors then sequence style.code ++ text ++ sequence "0" else text

/-- Without colours a text is written as it is. -/
theorem paint_false (style : Style) (text : String) : paint false style text = text := rfl

end GodotGraph.Text
