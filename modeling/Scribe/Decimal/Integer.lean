import Scribe.Decimal.Read

/-!
# Reading integers

Integers of 64 bits, as plain digits or in base two, eight, ten or sixteen. A mark in front tells
the base; a zero in front is the mark of base eight. Underscores may stand between digits.
-/

namespace Scribe

namespace Decimal

/-- The integer of a sign and a magnitude, if it fits into 64 bits. -/
def signed? (negative : Bool) (n : Nat) : Option Int :=
  if negative then (if n ≤ 0x8000000000000000 then some (-(n : Int)) else none)
  else (if n < 0x8000000000000000 then some (n : Int) else none)

def readDigits? (text : Bytes) : Option Int :=
  let (negative, digits) := splitSign text
  if digits.isEmpty || !digits.all Bytes.isDigit then none
  else signed? negative (digitsValue 10 digits)

/-- The base of an unsigned integer, its digits, and whether a mark of two characters precedes
them. -/
def splitBase (text : Bytes) : Nat × Bytes × Bool :=
  match text with
  | 0x30 :: mark :: rest =>
      let mark := lowerByte mark
      if mark = 0x78 then (16, rest, true)
      else if mark = 0x6F then (8, rest, true)
      else if mark = 0x62 then (2, rest, true)
      else (8, text.drop 1, false)
  | text => (10, text, false)

def readInteger? (text : Bytes) : Option Int :=
  let (negative, body) := splitSign text
  let (base, digits, marked) := splitBase body
  let plain := digits.filter (· ≠ 0x5F)
  if plain.isEmpty || !plain.all (fun b => (Bytes.digitValue? b).any (· < base)) then none
  else if digits.contains 0x5F && !underscoresFit (base = 16) (marked || base = 8) false digits then
    none
  else signed? negative (digitsValue base plain)

end Decimal

end Scribe
