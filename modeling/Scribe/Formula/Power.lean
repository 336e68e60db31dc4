import Scribe.Formula.Exponential

/-!
# Powers

A real number raised to a real power. A whole part of the exponent is worked off by repeated
squaring of the mantissa, with the binary exponents summed beside it, so whole powers of small
integers come out exact.
-/

namespace Scribe

namespace Power

/-- The most squarings that a whole exponent below `2 ^ 63` takes. -/
def squarings : Nat := 64

/-- Multiplies `factor * 2 ^ scale` by the `n`-th power of `base * 2 ^ step`. -/
def whole : (fuel n : Nat) → (factor : Float) → (scale : Int) → (base : Float) → (step : Int) →
    Float × Int
  | 0, _, factor, scale, _, _ => (factor, scale)
  | fuel + 1, n, factor, scale, base, step =>
      if n = 0 then (factor, scale)
      else if step < -4096 || 4096 < step then (factor, scale + step)
      else
        let (factor, scale) := if n % 2 = 1 then (factor * base, scale + step) else (factor, scale)
        let square := base * base
        if square < 0.5 then whole fuel (n / 2) factor scale (square + square) (step * 2 - 1)
        else whole fuel (n / 2) factor scale square (step * 2)

def infinity : Float := Float.ofBits 0x7FF0000000000000
def notANumber : Float := Float.ofBits 0x7FF8000000000001

def isOdd (y : Float) : Bool :=
  y.abs < 9007199254740992.0 && y.floor == y && y.abs.toUInt64 % 2 == 1

def isNegative (x : Float) : Bool := 0x8000000000000000 ≤ x.toBits.toNat

def ofZero (x y : Float) : Float :=
  let signed := isNegative x && isOdd y
  if y < 0 then (if signed then -infinity else infinity) else (if signed then x else 0)

def ofInfinite (x y : Float) : Float :=
  let signed := x < 0 && isOdd y
  if y < 0 then (if signed then -0.0 else 0) else (if signed then -infinity else infinity)

/-- Powers whose exponent is beyond all precision: only the size of the base matters. -/
def ofHuge (x : Float) (grows : Bool) : Float :=
  if x == -1 then 1 else if (x.abs < 1) == grows then 0 else infinity

def ofFinite (x y : Float) : Float :=
  let n := y.abs.floor
  let rest := y.abs - n
  if rest != 0 && x < 0 then notANumber
  else if 9223372036854775808.0 ≤ n then ofHuge x (0 < y)
  else
    let (n, rest) := if 0.5 < rest then (n + 1, rest - 1) else (n, rest)
    let start := if rest == 0 then 1 else exponential (rest * logarithm x)
    let (base, step) := x.frExp
    let (factor, scale) := whole squarings n.toUInt64.toNat start 0 base step
    if y < 0 then (1 / factor).scaleB (-scale) else factor.scaleB scale

end Power

def power (x y : Float) : Float :=
  if y == 0 || x == 1 then 1
  else if y == 1 then x
  else if x.isNaN || y.isNaN then Power.notANumber
  else if x == 0 then Power.ofZero x y
  else if y.isInf then Power.ofHuge x (0 < y)
  else if x.isInf then Power.ofInfinite x y
  else if y == 0.5 then x.sqrt
  else if y == -0.5 then 1 / x.sqrt
  else Power.ofFinite x y

end Scribe
