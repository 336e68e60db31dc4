import Scribe.Text.Bytes

/-!
# Texts that read as a point in time

A date, a date with a time, or an hour and a minute. A plain text of this form has to be quoted
where a reader would otherwise take it for a time.
-/

namespace Scribe.Timestamp

/-- Reads a number of one or two digits (`fixed`: exactly two). -/
def twoDigits? (fixed : Bool) : Bytes → Option (Nat × Bytes)
  | a :: b :: rest =>
      if !Bytes.isDigit a then none
      else if Bytes.isDigit b then some ((a.toNat - 0x30) * 10 + (b.toNat - 0x30), rest)
      else if fixed then none
      else some (a.toNat - 0x30, b :: rest)
  | [a] => if !fixed && Bytes.isDigit a then some (a.toNat - 0x30, []) else none
  | [] => none

def fourDigits? : Bytes → Option (Nat × Bytes)
  | a :: b :: c :: d :: rest =>
      if [a, b, c, d].all Bytes.isDigit then
        some ([a, b, c, d].foldl (fun n x => n * 10 + (x.toNat - 0x30)) 0, rest)
      else none
  | _ => none

def mark? (mark : UInt8) : Bytes → Option Bytes
  | b :: rest => if b = mark then some rest else none
  | [] => none

def isLeap (year : Nat) : Bool := year % 4 = 0 && (year % 100 ≠ 0 || year % 400 = 0)

def daysIn (year month : Nat) : Nat :=
  if month = 2 then (if isLeap year then 29 else 28)
  else if month = 4 || month = 6 || month = 9 || month = 11 then 30
  else 31

def date? (text : Bytes) : Option Bytes := do
  let (year, rest) ← fourDigits? text
  let rest ← mark? 0x2D rest
  let (month, rest) ← twoDigits? true rest
  let rest ← mark? 0x2D rest
  let (day, rest) ← twoDigits? true rest
  if 1 ≤ month && month ≤ 12 && 1 ≤ day && day ≤ daysIn year month then some rest else none

def skipFraction : Bytes → Bytes
  | point :: d :: rest =>
      if (point = 0x2E || point = 0x2C) && Bytes.isDigit d then rest.dropWhile Bytes.isDigit
      else point :: d :: rest
  | text => text

def clock? (text : Bytes) : Option Bytes := do
  let (hour, rest) ← twoDigits? false text
  let rest ← mark? 0x3A rest
  let (minute, rest) ← twoDigits? true rest
  let rest ← mark? 0x3A rest
  let (second, rest) ← twoDigits? true rest
  if hour < 24 && minute < 60 && second < 60 then some (skipFraction rest) else none

/-- `Z`, or a sign and `hour:minute`; a full day and a full hour are let through. -/
def zone? : Bytes → Option Bytes
  | 0x5A :: rest => some rest
  | sign :: rest =>
      if sign = 0x2B || sign = 0x2D then do
        let (hour, rest) ← twoDigits? true rest
        let rest ← mark? 0x3A rest
        let (minute, rest) ← twoDigits? true rest
        if hour ≤ 24 && minute ≤ 60 then some rest else none
      else none
  | [] => none

def isInstant (text : Bytes) : Bool :=
  match date? text with
  | some (mark :: rest) => (mark = 0x54 || mark = 0x74) && (clock? rest).bind zone? == some []
  | _ => false

def isDateAndTime (text : Bytes) : Bool :=
  match date? text with
  | some (0x20 :: rest) => clock? (rest.dropWhile (· = 0x20)) == some []
  | _ => false

def isHourAndMinute (text : Bytes) : Bool :=
  match twoDigits? false text with
  | some (hour, 0x3A :: rest) =>
      match twoDigits? false rest with
      | some (minute, []) => hour < 24 && minute < 60
      | _ => false
  | _ => false

def isTimestamp (text : Bytes) : Bool :=
  isInstant text || isDateAndTime text || date? text == some [] || isHourAndMinute text

end Scribe.Timestamp
