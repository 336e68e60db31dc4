/-!
# Sets of characters

A set is given by the sorted code points at which membership changes, so a character belongs to
it exactly when an odd number of them do not exceed it.
-/

namespace Scribe

structure CharSet where
  bounds : Array Nat

namespace CharSet

/-- Number of bounds that do not exceed `code`, by bisection of `[lo, hi)`. -/
def rankBetween (bounds : Array Nat) (code lo hi : Nat) : Nat :=
  if lo < hi then
    let mid := (lo + hi) / 2
    if bounds.getD mid 0 ≤ code then rankBetween bounds code (mid + 1) hi
    else rankBetween bounds code lo mid
  else lo
termination_by hi - lo

def rank (set : CharSet) (code : Nat) : Nat := rankBetween set.bounds code 0 set.bounds.size

def contains (set : CharSet) (c : Char) : Bool := set.rank c.toNat % 2 == 1

end CharSet

end Scribe
