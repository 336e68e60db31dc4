import Scribe.Decimal.Nearest

/-!
# Exponentials and logarithms

Both are computed by fixed polynomials, so that every step, and with it the last digit, is the
same everywhere. The exponential multiplies and adds with a single rounding.
-/

namespace Scribe

/-- The number `mantissa * 2 ^ exponent`, exactly. -/
structure Dyadic where
  mantissa : Int
  exponent : Int
  deriving DecidableEq, Repr

namespace Dyadic

def ofFloat (f : Float) : Dyadic :=
  let bits := f.toBits.toNat
  let fraction : Nat := bits % 0x10000000000000
  let biased : Nat := bits / 0x10000000000000 % 2048
  let mantissa : Nat := if biased = 0 then fraction else fraction + 0x10000000000000
  ⟨if bits < 0x8000000000000000 then mantissa else -(mantissa : Int), max biased 1 - 1075⟩

def mul (a b : Dyadic) : Dyadic := ⟨a.mantissa * b.mantissa, a.exponent + b.exponent⟩

def mantissaAt (a : Dyadic) (exponent : Int) : Int :=
  a.mantissa * (Nat.pow 2 (a.exponent - exponent).toNat : Nat)

def add (a b : Dyadic) : Dyadic :=
  let least := min a.exponent b.exponent
  ⟨a.mantissaAt least + b.mantissaAt least, least⟩

def toFloat (a : Dyadic) : Float :=
  let size := BinaryFormat.double.nearestBits
    (a.mantissa.natAbs * Nat.pow 2 a.exponent.toNat) (Nat.pow 2 (-a.exponent).toNat)
  let magnitude := Float.ofBits size.toUInt64
  if a.mantissa < 0 then -magnitude else magnitude

end Dyadic

/-- `a * b + c` with a single rounding. -/
def fusedMulAdd (a b c : Float) : Float :=
  (Dyadic.add (Dyadic.mul (.ofFloat a) (.ofFloat b)) (.ofFloat c)).toFloat

namespace Exponential

def log2e : Float := Float.ofBits 0x3FF71547652B82FE

/-- The natural logarithm of two, in two parts. -/
def ln2Upper : Float := Float.ofBits 0x3FE62E42FEFA3000
def ln2Lower : Float := Float.ofBits 0x3D53DE6AF278ECE6

/-- One over the factorials of eight, seven, and so on down to one. -/
def coefficients : List Float :=
  [0x3EFA01A01A01A01A, 0x3F2A01A01A01A01A, 0x3F56C16C16C16C17, 0x3F81111111111111,
    0x3FA5555555555555, 0x3FC5555555555555, 0x3FE0000000000000, 0x3FF0000000000000].map
    Float.ofBits

def nearestInteger (f : Float) : Int :=
  let d := Dyadic.ofFloat f
  let size : Nat :=
    BinaryFormat.roundHalfEven (d.mantissa.natAbs * Nat.pow 2 d.exponent.toNat)
      (Nat.pow 2 (-d.exponent).toNat)
  if d.mantissa < 0 then -(size : Int) else size

/-- From `exp x - 1` to `exp (2 * x) - 1`. -/
def doubled (f : Float) : Float := f * (f + 2)

end Exponential

open Exponential in
/-- The exponential of a number that is neither large nor small. What is left of the number when
multiples of the logarithm of two are taken off is divided by sixteen, and the series of the
sixteenth is doubled four times. -/
def exponential (x : Float) : Float :=
  let n := nearestInteger (x * log2e)
  let whole := Float.ofInt n
  let rest := fusedMulAdd (-ln2Lower) whole (fusedMulAdd (-ln2Upper) whole x) * 0.0625
  let series := coefficients.tail.foldl (fun sum c => fusedMulAdd sum rest c)
    (coefficients.headD 0)
  let eighth := doubled (doubled (doubled (rest * series)))
  (fusedMulAdd (eighth + 2) eighth 1).scaleB n

namespace Logarithm

def halfRoot : Float := Float.ofBits 0x3FE6A09E667F3BCD

def ln2High : Float := Float.ofBits 0x3FE62E42FEE00000
def ln2Low : Float := Float.ofBits 0x3DEA39EF35793C76

/-- The odd and the even terms of the series, in the fourth power of its argument. -/
def odd (q : Float) : Float :=
  Float.ofBits 0x3FE5555555555593 + q * (Float.ofBits 0x3FD2492494229359 +
    q * (Float.ofBits 0x3FC7466496CB03DE + q * Float.ofBits 0x3FC2F112DF3E5244))

def even (q : Float) : Float :=
  Float.ofBits 0x3FD999999997FA04 + q * (Float.ofBits 0x3FCC71C51D8E78AF +
    q * Float.ofBits 0x3FC39A09D078C69F)

end Logarithm

open Logarithm in
/-- The natural logarithm of a positive number, by the series of `log ((1 + s) / (1 - s))`. -/
def logarithm (x : Float) : Float :=
  let (mantissa, exponent) := x.frExp
  let (mantissa, exponent) :=
    if mantissa < halfRoot then (mantissa * 2, exponent - 1) else (mantissa, exponent)
  let f := mantissa - 1
  let k := Float.ofInt exponent
  let s := f / (2 + f)
  let square := s * s
  let fourth := square * square
  let series := square * odd fourth + fourth * even fourth
  let half := 0.5 * f * f
  k * ln2High - ((half - (s * (half + series) + k * ln2Low)) - f)

end Scribe
