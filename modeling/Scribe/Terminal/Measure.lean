import Scribe.Terminal.Control
import Scribe.Text.Cell

/-!
# The width of a text

The columns of a terminal that a text takes. Control sequences take none, a character of ASCII
takes one, and what starts with any other character counts by clusters.
-/

namespace Scribe

/-- `done` cells and those of a line read in `mode`; its first `pending` bytes belong to a cluster
already counted. -/
def cellsFrom (done : Nat) (mode : ControlMode) : (pending : Nat) → Bytes → Nat
  | _, [] => done
  | pending + 1, _ :: rest => cellsFrom done mode pending rest
  | 0, b :: rest =>
      match mode.read b with
      | .printed => cellsFrom (done + 1) .ground 0 rest
      | .lead => cellsFrom (done + cellsOfCluster b rest) .ground (clusterLength b rest - 1) rest
      | .enters mode => cellsFrom done mode 0 rest

def cellsOfLine (line : Bytes) : Nat := cellsFrom 0 .ground 0 line

end Scribe
