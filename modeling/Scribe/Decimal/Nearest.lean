/-!
# Nearest binary numbers

The bit pattern of the number of a binary format that lies nearest to a quotient. A quotient
halfway between two of them goes to the one with an even pattern, and what lies beyond the largest
of them by half a gap or more is infinite. All arithmetic is on natural numbers and integers.
-/

namespace Scribe

/-- A binary format: how many bits its patterns keep of the fraction and of the exponent. -/
structure BinaryFormat where
  fractionBits : Nat
  exponentBits : Nat
  deriving DecidableEq, Repr

namespace BinaryFormat

def double : BinaryFormat := ⟨52, 11⟩
def single : BinaryFormat := ⟨23, 8⟩

/-- The exponent of the least number that is written with a leading one. -/
def leastExponent (f : BinaryFormat) : Int := 2 - (Nat.pow 2 (f.exponentBits - 1) : Nat)

/-- The pattern of infinity, which lies above those of all finite numbers. -/
def infinityBits (f : BinaryFormat) : Nat :=
  (Nat.pow 2 f.exponentBits - 1) * Nat.pow 2 f.fractionBits

/-- The `e` with `2 ^ e ≤ num / den < 2 ^ (e + 1)`, for positive `num` and `den`. -/
def magnitude (num den : Nat) : Int :=
  let guess : Int := (Nat.log2 num : Int) - (Nat.log2 den : Int)
  let reached :=
    if 0 ≤ guess then den * Nat.pow 2 guess.toNat ≤ num
    else den ≤ num * Nat.pow 2 (-guess).toNat
  if reached then guess else guess - 1

def roundHalfEven (num den : Nat) : Nat :=
  let quotient := num / den
  let twice := 2 * (num % den)
  if twice < den || (twice = den && quotient % 2 = 0) then quotient else quotient + 1

/-- The pattern nearest to `num / den`, for a positive `den`. A pattern counts the steps of its
exponent from zero, so a fraction that rounds up to a power of two carries into the exponent. -/
def nearestBits (f : BinaryFormat) (num den : Nat) : Nat :=
  if num = 0 then 0
  else
    let exponent := max (magnitude num den) f.leastExponent
    let shift := exponent - f.fractionBits
    let steps := roundHalfEven (num * Nat.pow 2 (-shift).toNat) (den * Nat.pow 2 shift.toNat)
    min ((exponent - f.leastExponent).toNat * Nat.pow 2 f.fractionBits + steps) f.infinityBits

end BinaryFormat

end Scribe
