import Scribe.Terminal.Colour
import Scribe.Terminal.Measure

/-!
# Styled text

A style with properties wraps every line on its own, and fills lines of several up to the width
of the widest.
-/

namespace Scribe

structure Style where
  bold : Bool := false
  text : Option Colour := none
  ground : Option Colour := none

namespace Style

def codes (s : Style) : List String :=
  (if s.bold then ["1"] else []) ++ (s.text.map Colour.code).toList ++
    (s.ground.map Colour.groundCode).toList

/-- A tab is shown as four spaces. -/
def expandTabs (text : Bytes) : Bytes :=
  text.flatMap fun b => if b = 0x09 then Bytes.spaces 4 else [b]

/-- Line ends of two characters made one. -/
def joinLineEnds : Bytes → Bytes
  | 0x0D :: 0x0A :: rest => 0x0A :: joinLineEnds rest
  | b :: rest => b :: joinLineEnds rest
  | [] => []

def wrap (codes : List String) (line : Bytes) : Bytes :=
  utf8 "\x1b[" ++ utf8 (String.intercalate ";" codes) ++ utf8 "m" ++ line ++ Colour.reset

def render (s : Style) (text : Bytes) : Bytes :=
  let shown := expandTabs text
  if s.codes.isEmpty then shown
  else
    let lines := Bytes.splitOn Bytes.lineFeed (joinLineEnds shown)
    let widest := lines.foldl (fun widest line => max widest (cellsOfLine line)) 0
    let filled := lines.map fun line =>
      wrap s.codes line ++
        (if lines.length = 1 then [] else Bytes.spaces (widest - cellsOfLine line))
    Bytes.join [Bytes.lineFeed] filled

def prompt : Style := { bold := true, text := some .cyan }
def input : Style := { text := some .white }
def output : Style := {}
def result : Style := { text := some .green }
def error : Style := { text := some .red }
def hint : Style := { text := some .gray }
def suggestion : Style := { text := some .blue }
def selected : Style := { text := some .black, ground := some .blue }

def candidate (isSelected isHit : Bool) : Style :=
  { (if isSelected then selected else suggestion) with bold := isHit }

def label : Style := { bold := true }

end Style

end Scribe
