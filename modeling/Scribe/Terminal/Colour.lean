import Scribe.Text.Bytes

/-!
# Terminal colours
-/

namespace Scribe

inductive Colour where
  | black
  | red
  | green
  | yellow
  | blue
  | magenta
  | cyan
  | gray
  | white
  deriving DecidableEq, Repr

namespace Colour

def code : Colour → String
  | .black => "30"
  | .red => "31"
  | .green => "32"
  | .yellow => "33"
  | .blue => "34"
  | .magenta => "35"
  | .cyan => "36"
  | .gray => "90"
  | .white => "97"

/-- The code of a colour as the colour behind the text. -/
def groundCode : Colour → String
  | .black => "40"
  | .red => "41"
  | .green => "42"
  | .yellow => "43"
  | .blue => "44"
  | .magenta => "45"
  | .cyan => "46"
  | .gray => "100"
  | .white => "107"

def start (c : Colour) : Bytes := utf8 "\x1b[" ++ utf8 c.code ++ utf8 "m"

def reset : Bytes := utf8 "\x1b[0m"

def paint (c : Colour) (text : Bytes) : Bytes := c.start ++ text ++ reset

end Colour

end Scribe
