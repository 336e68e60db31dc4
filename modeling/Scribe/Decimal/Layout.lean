import Scribe.Decimal.Shortest
import Scribe.Text.Bytes

/-!
# Number text

How the digits of a number are laid out. Every output of the program has one layout record; the
digits are always the shortest that read back.
-/

namespace Scribe

structure Layout where
  /-- A leading digit below `10 ^ least` makes the text scientific. -/
  least : Option Int
  /-- A leading digit of `10 ^ limit` or more makes the text scientific. -/
  limit : Option Int
  /-- Fewest digits of a negative exponent. A positive one has at least two. -/
  negativeWidth : Nat
  /-- What a text with neither point nor exponent ends in. -/
  integerTail : String
  infinity : String
  negativeInfinity : String

namespace Layout

/-- What a script prints: never an exponent. -/
def plain : Layout := ⟨none, none, 2, "", "Infinity", "-Infinity"⟩

def flag : Layout := ⟨none, none, 2, "", "+Inf", "-Inf"⟩

/-- The general form of log records: an exponent below `1e-4` and from `1e6` on. -/
def general : Layout := ⟨some (-4), some 6, 2, "", "+Inf", "-Inf"⟩

/-- Numbers of JSON text: an exponent below `1e-6` and from `1e21` on. -/
def json : Layout := ⟨some (-6), some 21, 1, "", "+Inf", "-Inf"⟩

/-- Numbers of YAML text: the general form, with `.0` to tell an integral number from a line
number. -/
def yaml : Layout := ⟨some (-4), some 6, 2, ".0", ".inf", "-.inf"⟩

def isScientific (layout : Layout) (lead : Int) : Bool :=
  layout.least.any (lead < ·) || layout.limit.any (· ≤ lead)

def zeros (count : Nat) : Bytes := List.replicate count 0x30

def positional (d : Decimal) : Bytes :=
  let digits := Bytes.ofNat d.digits
  if 0 ≤ d.exponent then
    if d.digits = 0 then digits else digits ++ zeros d.exponent.toNat
  else
    let places := (-d.exponent).toNat
    let padded := zeros (places + 1 - digits.length) ++ digits
    padded.take (padded.length - places) ++ [0x2E] ++ padded.drop (padded.length - places)

def padLeft (width : Nat) (digits : Bytes) : Bytes := zeros (width - digits.length) ++ digits

/-- One digit, the others behind a point, and the exponent of the first. -/
def scientific (layout : Layout) (d : Decimal) (lead : Int) : Bytes :=
  let digits := Bytes.ofNat d.digits
  let fraction := digits.drop 1
  digits.take 1 ++ (if fraction.isEmpty then [] else 0x2E :: fraction) ++ [0x65] ++
    (if lead < 0 then 0x2D :: padLeft layout.negativeWidth (Bytes.ofNat lead.natAbs)
     else 0x2B :: padLeft 2 (Bytes.ofNat lead.natAbs))

def magnitude (layout : Layout) (d : Decimal) : Bytes :=
  let lead := d.exponent + Decimal.digitCount d.digits - 1
  if d.digits ≠ 0 && layout.isScientific lead then scientific layout d lead
  else
    let text := positional d
    if text.contains 0x2E then text else text ++ utf8 layout.integerTail

def signBit (f : Float) : Bool := 0x8000000000000000 ≤ f.toBits.toNat

def number (layout : Layout) (f : Float) : Bytes :=
  if f.isNaN then utf8 "NaN"
  else if f.isInf then utf8 (if signBit f then layout.negativeInfinity else layout.infinity)
  else
    let unsigned := f.toBits.toNat % 0x8000000000000000
    let text := layout.magnitude (Decimal.shortest (Binary.ofBits unsigned))
    if signBit f then 0x2D :: text else text

end Layout

end Scribe
