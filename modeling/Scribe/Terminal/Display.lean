import Scribe.Terminal.Style

/-!
# Displays

What shows styled texts, and tells how wide they are.
-/

namespace Scribe

structure Display where
  /-- What a style makes of a text. -/
  render : Style → Bytes → Bytes
  /-- The columns that a line takes. -/
  cellsOfLine : Bytes → Nat

namespace Display

/-- The columns of the widest line of a text. -/
def cellsOf (d : Display) (text : Bytes) : Nat :=
  (Bytes.splitOn Bytes.lineFeed text).foldl (fun widest line => max widest (d.cellsOfLine line)) 0

/-- A terminal that is told about styles by control sequences. -/
def ansi : Display := { render := Style.render, cellsOfLine := Scribe.cellsOfLine }

end Display

end Scribe
