/-!
# Shortest decimals

The decimal of fewest digits that reads back as a given double, and of those the nearest. All
arithmetic is on natural numbers, so no rounding takes place.
-/

namespace Scribe

/-- The number `digits * 10 ^ exponent`. -/
structure Decimal where
  digits : Nat
  exponent : Int
  deriving DecidableEq, Repr

/-- A positive double `mantissa * 2 ^ exponent`. The gap to the next double below is half as wide
when `narrowBelow` holds. -/
structure Binary where
  mantissa : Nat
  exponent : Int
  narrowBelow : Bool
  deriving DecidableEq, Repr

namespace Binary

/-- The double of a bit pattern without its sign; the pattern must be finite. -/
def ofBits (bits : Nat) : Binary :=
  let fraction : Nat := bits % Nat.pow 2 52
  let biased : Nat := bits / Nat.pow 2 52 % Nat.pow 2 11
  if biased = 0 then ⟨fraction, -1074, false⟩
  else ⟨fraction + Nat.pow 2 52, (biased : Int) - 1075, fraction = 0 && 1 < biased⟩

/-- Numerators over one denominator: the value, and the two ends of the interval of reals that
read back as it. -/
structure Scaled where
  low : Nat
  value : Nat
  high : Nat
  denominator : Nat
  deriving Repr

def scaled (b : Binary) : Scaled :=
  let shift := b.exponent - 2
  let up := Nat.pow 2 shift.toNat
  let below := if b.narrowBelow then 1 else 2
  ⟨(4 * b.mantissa - below) * up, 4 * b.mantissa * up, (4 * b.mantissa + 2) * up,
    Nat.pow 2 (-shift).toNat⟩

end Binary

namespace Decimal

def digitCount (n : Nat) : Nat := (Nat.repr n).length

/-- The `e` with `10 ^ (e - 1) ≤ num / den < 10 ^ e`, for positive `num` and `den`. -/
def magnitude (num den : Nat) : Int :=
  if den ≤ num then digitCount (num / den)
  else 1 - (digitCount ((den - 1) / num) : Int)

def readsBack (even : Bool) (s : Binary.Scaled) (scale candidate : Nat) : Bool :=
  if even then s.low * scale ≤ candidate && candidate ≤ s.high * scale
  else s.low * scale < candidate && candidate < s.high * scale

/-- The better of the two neighbours of the value on the grid of multiples of `10 ^ exponent`,
if one of them reads back. -/
def onGrid? (even : Bool) (s : Binary.Scaled) (exponent : Int) : Option Decimal :=
  -- The value is `s.value * scale / unit` grid steps.
  let scale := Nat.pow 10 (-exponent).toNat
  let unit := s.denominator * Nat.pow 10 exponent.toNat
  let under := s.value * scale / unit
  let rest := s.value * scale % unit
  let down := readsBack even s scale (under * unit)
  let up := readsBack even s scale ((under + 1) * unit)
  if rest = 0 then some ⟨under, exponent⟩
  else if down && (!up || 2 * rest < unit || (2 * rest = unit && under % 2 = 0)) then
    some ⟨under, exponent⟩
  else if up then some ⟨under + 1, exponent⟩
  else none

/-- The first grid with a hit, from one digit to seventeen. -/
def search (even : Bool) (s : Binary.Scaled) (magnitude : Int) : (left used : Nat) → Decimal
  | 0, used => ⟨s.value * Nat.pow 10 (used - magnitude).toNat / s.denominator, magnitude - used⟩
  | left + 1, used =>
      match onGrid? even s (magnitude - (used + 1 : Nat)) with
      | some d => d
      | none => search even s magnitude left (used + 1)

def trimZeros : (fuel : Nat) → Decimal → Decimal
  | 0, d => d
  | fuel + 1, d =>
      if d.digits % 10 = 0 && d.digits ≠ 0 then trimZeros fuel ⟨d.digits / 10, d.exponent + 1⟩
      else d

def shortest (b : Binary) : Decimal :=
  if b.mantissa = 0 then ⟨0, 0⟩
  else
    let s := b.scaled
    trimZeros 17 (search (b.mantissa % 2 = 0) s (magnitude s.value s.denominator) 17 0)

end Decimal

end Scribe
