import Scribe.Decimal.Nearest
import Scribe.Text.Bytes

/-!
# Reading numbers

The number of a binary format that lies nearest to a written one. A magnitude beyond the largest
of them reads as an infinity.
-/

namespace Scribe

namespace Decimal

def digitsValue (base : Nat) (digits : Bytes) : Nat :=
  digits.foldl (fun n b => n * base + (Bytes.digitValue? b).getD 0) 0

def infinity : Float := Float.ofBits 0x7FF0000000000000
def notANumber : Float := Float.ofBits 0x7FF8000000000001

/-- A written magnitude, exactly: `mantissa * base ^ exponent`. -/
structure Magnitude where
  mantissa : Nat
  base : Nat
  exponent : Int
  deriving DecidableEq, Repr

namespace Magnitude

/-- The `e` up to which the magnitude counts as `base ^ e`, give or take one. -/
def lead (m : Magnitude) : Int :=
  m.exponent + (if m.base = 2 then Nat.log2 m.mantissa else (Nat.repr m.mantissa).length : Nat)

/-- The pattern nearest to the magnitude. No format here reaches beyond `base ^ 1100` in either
direction, so that such a power is never computed. -/
def nearestBits (f : BinaryFormat) (m : Magnitude) : Nat :=
  if m.mantissa = 0 || m.lead < -1100 then 0
  else if 1100 < m.lead then f.infinityBits
  else
    f.nearestBits (m.mantissa * Nat.pow m.base m.exponent.toNat)
      (Nat.pow m.base (-m.exponent).toNat)

def toFloat (m : Magnitude) : Float := Float.ofBits (m.nearestBits .double).toUInt64

def toSingle (m : Magnitude) : Float32 := Float32.ofBits (m.nearestBits .single).toUInt32

end Magnitude

/-- The value of digits with at most one point among them, such as the text of a number token. -/
def readPlain (text : Bytes) : Float :=
  match Bytes.cut? 0x2E text with
  | some (whole, fraction) =>
      Magnitude.toFloat ⟨digitsValue 10 (whole ++ fraction), 10, -fraction.length⟩
  | none => Magnitude.toFloat ⟨digitsValue 10 text, 10, 0⟩

/-- Whether every underscore stands between two digits, or between a base mark and a digit. The
state is the class of the byte before. -/
def underscoresFit (hex : Bool) : (afterDigit afterUnderscore : Bool) → Bytes → Bool
  | _, afterUnderscore, [] => !afterUnderscore
  | afterDigit, afterUnderscore, b :: rest =>
      if Bytes.isDigit b || (hex && (Bytes.digitValue? b).isSome) then
        underscoresFit hex true false rest
      else if b = 0x5F then afterDigit && underscoresFit hex false true rest
      else !afterUnderscore && underscoresFit hex false false rest

def lowerByte (b : UInt8) : UInt8 := if 0x41 ≤ b && b ≤ 0x5A then b + 0x20 else b

def splitSign : Bytes → Bool × Bytes
  | 0x2B :: rest => (false, rest)
  | 0x2D :: rest => (true, rest)
  | text => (false, text)

/-- An exponent: optional sign and at least one digit. Digits behind one with which it reaches
ten thousand are not counted. -/
def readExponent? (text : Bytes) : Option Int :=
  let (negative, digits) := splitSign text
  if digits.isEmpty || !digits.all Bytes.isDigit then none
  else
    let n : Nat :=
      digits.foldl (fun n b => if n < 10000 then n * 10 + (b.toNat - 0x30) else n) 0
    some (if negative then -n else n)

/-- A magnitude without sign: mantissa digits with at most one point, and an exponent, which a
hexadecimal magnitude must have. -/
def readMagnitude? (text : Bytes) : Option Magnitude :=
  let (hex, body) :=
    match text with
    | 0x30 :: x :: rest =>
        if lowerByte x = 0x78 && !rest.isEmpty then (true, rest) else (false, text)
    | _ => (false, text)
  let isMark (b : UInt8) := lowerByte b = if hex then 0x70 else 0x65
  let mantissa := body.takeWhile (!isMark ·)
  let afterMark := body.dropWhile (!isMark ·)
  let (whole, fraction) := (Bytes.cut? 0x2E mantissa).getD (mantissa, [])
  let isDigit (b : UInt8) := if hex then (Bytes.digitValue? b).isSome else Bytes.isDigit b
  let digits := (whole ++ fraction).filter (· ≠ 0x5F)
  let places : Int := (fraction.filter (· ≠ 0x5F)).length
  if digits.isEmpty || !digits.all isDigit then none
  else if text.contains 0x5F && !underscoresFit hex hex false body then none
  else
    let exponent? :=
      if afterMark.isEmpty then (if hex then none else some 0)
      else readExponent? ((afterMark.drop 1).filter (· ≠ 0x5F))
    exponent?.map fun exponent =>
      if hex then ⟨digitsValue 16 digits, 2, exponent - 4 * places⟩
      else ⟨digitsValue 10 digits, 10, exponent - places⟩

inductive Numeral where
  | finite (negative : Bool) (magnitude : Magnitude)
  | infinite (negative : Bool)
  | notANumber
  deriving DecidableEq, Repr

namespace Numeral

def read? (text : Bytes) : Option Numeral :=
  let (negative, body) := splitSign text
  let word := Bytes.lower body
  if word = utf8 "inf" || word = utf8 "infinity" then some (.infinite negative)
  else if Bytes.lower text = utf8 "nan" then some .notANumber
  else (readMagnitude? body).map (.finite negative)

def toFloat : Numeral → Float
  | .finite negative m => if negative then -m.toFloat else m.toFloat
  | .infinite negative => if negative then -infinity else infinity
  | .notANumber => Decimal.notANumber

def toSingle : Numeral → Float32
  | .finite negative m => if negative then -m.toSingle else m.toSingle
  | .infinite negative => if negative then Float32.ofBits 0xFF800000 else Float32.ofBits 0x7F800000
  | .notANumber => Float32.ofBits 0x7FC00000

end Numeral

def read? (text : Bytes) : Option Float := (Numeral.read? text).map Numeral.toFloat

/-- The number of single precision nearest to a written one. It is rounded once. -/
def readSingle? (text : Bytes) : Option Float32 := (Numeral.read? text).map Numeral.toSingle

end Decimal

end Scribe
