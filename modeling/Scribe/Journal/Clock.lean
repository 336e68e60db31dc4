import Scribe.Text.Case
import Scribe.Text.Rune

/-!
# Points in time

The text of an instant, in UTC. A layout shows how a fixed reference time is to be written:
Monday, January 2nd 2006, 15:04:05. What a layout does not recognise stands for itself.
-/

namespace Scribe

/-- Seconds since 1970-01-01 00:00:00 UTC, and nanoseconds after that second. -/
structure Instant where
  seconds : Int64
  nanos : Nat
  deriving DecidableEq, Repr

structure Duration where
  nanos : Int
  deriving DecidableEq, Repr

namespace Instant

structure Date where
  year : Int
  month : Nat
  day : Nat
  /-- Day of the year, from one. -/
  yearDay : Nat
  /-- Day of the week, Sunday being zero. -/
  weekDay : Nat
  deriving DecidableEq, Repr

def secondsPerDay : Int := 86400

/-- The Gregorian date of a day counted from 1970-01-01. Years are taken to start in March, so
that the leap day is the last of its year. -/
def dateOfDay (day : Int) : Date :=
  let shifted := day + 719468
  let era := shifted.fdiv 146097
  let dayOfEra := (shifted - era * 146097).toNat
  let yearOfEra := (dayOfEra - dayOfEra / 1460 + dayOfEra / 36524 - dayOfEra / 146096) / 365
  let dayOfYear := dayOfEra - (365 * yearOfEra + yearOfEra / 4 - yearOfEra / 100)
  let shiftedMonth := (5 * dayOfYear + 2) / 153
  let month := if shiftedMonth < 10 then shiftedMonth + 3 else shiftedMonth - 9
  let year : Int := yearOfEra + era * 400 + (if month ≤ 2 then 1 else 0)
  let leap := year % 4 = 0 && (year % 100 ≠ 0 || year % 400 = 0)
  { year, month,
    day := dayOfYear - (153 * shiftedMonth + 2) / 5 + 1
    yearDay := if month ≤ 2 then dayOfYear - 305 else dayOfYear + 60 + (if leap then 1 else 0)
    weekDay := ((day + 4).fmod 7).toNat }

/-- The instant `nanos` nanoseconds after a second, or before it. Whole seconds among them are
carried over, and the count of seconds wraps around. -/
def ofUnix (seconds nanos : Int) : Instant :=
  ⟨Int64.ofInt (seconds + nanos.fdiv 1000000000), (nanos.fmod 1000000000).toNat⟩

/-- The second with which the calendar starts: the first of March of the year -292277022400. -/
def calendarStart : Int := -9223372028741760000

/-- Seconds since 1970 on the calendar. What lies before its start is taken to lie one round of
64 bits later. -/
def calendarSeconds (t : Instant) : Int :=
  if t.seconds.toInt < calendarStart then t.seconds.toInt + 18446744073709551616
  else t.seconds.toInt

def date (t : Instant) : Date := dateOfDay (t.calendarSeconds.fdiv secondsPerDay)

def secondOfDay (t : Instant) : Nat := (t.calendarSeconds.fmod secondsPerDay).toNat

def hour (t : Instant) : Nat := t.secondOfDay / 3600
def minute (t : Instant) : Nat := t.secondOfDay / 60 % 60
def second (t : Instant) : Nat := t.secondOfDay % 60

end Instant

namespace TimeLayout

inductive Part where
  | other (b : UInt8)
  | monthName (long : Bool)
  | month (padded : Bool)
  | weekDay (long : Bool)
  | day (pad : Option UInt8)
  | yearDay (pad : UInt8)
  | hour
  | hour12 (padded : Bool)
  | minute (padded : Bool)
  | second (padded : Bool)
  | year (long : Bool)
  | half (upper : Bool)
  | zoneName
  /-- A numeric zone; `zulu` writes `Z` for UTC. -/
  | zone (zulu : Bool) (text : String)
  /-- A fraction of a second behind `mark`, of `digits` digits; `trimmed` drops final zeros. -/
  | fraction (mark : UInt8) (digits : Nat) (trimmed : Bool)
  deriving DecidableEq, Repr

/-- The fixed spellings, each before those that it starts with. -/
def spellings : List (String × Part) :=
  [("January", .monthName true), ("Monday", .weekDay true), ("MST", .zoneName),
    ("01", .month true), ("02", .day (some 0x30)), ("03", .hour12 true), ("04", .minute true),
    ("05", .second true), ("06", .year false), ("002", .yearDay 0x30),
    ("15", .hour), ("1", .month false), ("2006", .year true), ("2", .day none),
    ("__2", .yearDay 0x20),
    ("3", .hour12 false), ("4", .minute false), ("5", .second false),
    ("PM", .half true), ("pm", .half false),
    ("-070000", .zone false "+000000"), ("-07:00:00", .zone false "+00:00:00"),
    ("-0700", .zone false "+0000"), ("-07:00", .zone false "+00:00"), ("-07", .zone false "+00"),
    ("Z070000", .zone true ""), ("Z07:00:00", .zone true ""), ("Z0700", .zone true ""),
    ("Z07:00", .zone true ""), ("Z07", .zone true "")]

def startsLower : Bytes → Bool
  | b :: _ => 0x61 ≤ b && b ≤ 0x7A
  | [] => false

/-- A short name counts only where no lower case letter follows. -/
def shortName? (text : Bytes) : Option (Part × Bytes) :=
  let attempt (name : String) (part : Part) : Option (Part × Bytes) :=
    (Bytes.dropStart? text (utf8 name)).bind fun rest =>
      if startsLower rest then none else some (part, rest)
  (attempt "Jan" (.monthName false)).or (attempt "Mon" (.weekDay false))

/-- A layout keeps the number of digits of a fraction modulo this. -/
def fractionPeriod : Nat := 4096

/-- A fraction: a point or comma, then zeros or nines that no digit follows. -/
def fraction? : Bytes → Option (Part × Bytes)
  | mark :: d :: rest =>
      if (mark = 0x2E || mark = 0x2C) && (d = 0x30 || d = 0x39) then
        let more := rest.takeWhile (· = d)
        let after := rest.dropWhile (· = d)
        if (after.head?.map Bytes.isDigit).getD false then none
        else some (.fraction mark ((more.length + 1) % fractionPeriod) (d = 0x39), after)
      else none
  | _ => none

/-- A blank-padded day; before a long year the blank mark stands for itself. -/
def underscore? (text : Bytes) : Option (Part × Bytes) :=
  match Bytes.dropStart? text (utf8 "_2") with
  | some rest =>
      if Bytes.startsWith rest (utf8 "006") then some (.other 0x5F, 0x32 :: rest)
      else some (.day (some 0x20), rest)
  | none => none

def fixed? (text : Bytes) : Option (Part × Bytes) :=
  spellings.findSome? fun (spelling, part) =>
    (Bytes.dropStart? text (utf8 spelling)).map fun rest => (part, rest)

def part? (text : Bytes) : Option (Part × Bytes) :=
  match underscore? text with
  | some found => some found
  | none =>
      match fraction? text with
      | some found => some found
      | none => (fixed? text).or (shortName? text)

/-- The parts of a layout. `fuel` bounds their number; each takes at least one byte. -/
def parts : (fuel : Nat) → Bytes → List Part
  | 0, _ => []
  | _ + 1, [] => []
  | fuel + 1, b :: rest =>
      match part? (b :: rest) with
      | some (part, after) => part :: parts fuel after
      | none => .other b :: parts fuel rest

def monthNames : List String :=
  ["January", "February", "March", "April", "May", "June", "July", "August", "September",
    "October", "November", "December"]

def weekDayNames : List String :=
  ["Sunday", "Monday", "Tuesday", "Wednesday", "Thursday", "Friday", "Saturday"]

def nameAt (names : List String) (index : Nat) (long : Bool) : Bytes :=
  let name := utf8 ((names[index]?).getD "")
  if long then name else name.take 3

def padded (fill : UInt8) (width n : Nat) : Bytes :=
  let digits := Bytes.ofNat n
  List.replicate (width - digits.length) fill ++ digits

def twoPlaces (pad : Bool) (n : Nat) : Bytes := if pad then padded 0x30 2 n else Bytes.ofNat n

def fractionText (mark : UInt8) (digits : Nat) (trimmed : Bool) (nanos : Nat) : Bytes :=
  let shown := (padded 0x30 9 nanos).take (min digits 9)
  if trimmed then
    let kept := (shown.reverse.dropWhile (· = 0x30)).reverse
    if kept.isEmpty then [] else mark :: kept
  else mark :: shown

def write (t : Instant) : Part → Bytes
  | .other b => [b]
  | .monthName long => nameAt monthNames (t.date.month - 1) long
  | .month pad => twoPlaces pad t.date.month
  | .weekDay long => nameAt weekDayNames t.date.weekDay long
  | .day none => Bytes.ofNat t.date.day
  | .day (some fill) => padded fill 2 t.date.day
  | .yearDay fill => padded fill 3 t.date.yearDay
  | .hour => padded 0x30 2 t.hour
  | .hour12 pad => twoPlaces pad (if t.hour % 12 = 0 then 12 else t.hour % 12)
  | .minute pad => twoPlaces pad t.minute
  | .second pad => twoPlaces pad t.second
  | .year true =>
      (if t.date.year < 0 then [0x2D] else []) ++ padded 0x30 4 t.date.year.natAbs
  | .year false => padded 0x30 2 (t.date.year.toNat % 100)
  | .half upper =>
      utf8 (if 12 ≤ t.hour then (if upper then "PM" else "pm") else (if upper then "AM" else "am"))
  | .zoneName => utf8 "UTC"
  | .zone true _ => utf8 "Z"
  | .zone false text => utf8 text
  | .fraction mark digits trimmed => fractionText mark digits trimmed t.nanos

def format (layout : Bytes) (t : Instant) : Bytes :=
  (parts layout.length layout).flatMap (write t)

/-- Names of layouts: letters and digits only, in lower case. -/
def named : List (String × String) :=
  [("rfc3339", "2006-01-02T15:04:05Z07:00"),
    ("rfc3339nano", "2006-01-02T15:04:05.999999999Z07:00"),
    ("ansic", "Mon Jan _2 15:04:05 2006"),
    ("unixdate", "Mon Jan _2 15:04:05 MST 2006"),
    ("rubydate", "Mon Jan 02 15:04:05 -0700 2006"),
    ("rfc822", "02 Jan 06 15:04 MST"),
    ("rfc822z", "02 Jan 06 15:04 -0700"),
    ("rfc850", "Monday, 02-Jan-06 15:04:05 MST"),
    ("kitchen", "3:04PM"),
    ("datetime", "2006-01-02 15:04:05"),
    ("timeonly", "15:04:05"),
    ("stamp", "Jan _2 15:04:05"),
    ("none", ""),
    ("stampmilli", "Jan _2 15:04:05.000"),
    ("milli", "Jan _2 15:04:05.000"),
    ("ms", "Jan _2 15:04:05.000"),
    ("stampmicro", "Jan _2 15:04:05.000000"),
    ("micro", "Jan _2 15:04:05.000000"),
    ("us", "Jan _2 15:04:05.000000"),
    ("stampnano", "Jan _2 15:04:05.000000000"),
    ("nano", "Jan _2 15:04:05.000000000"),
    ("ns", "Jan _2 15:04:05.000000000")]

def advertised : List String :=
  ["rfc3339", "rfc3339nano", "datetime", "timeonly", "kitchen", "stamp", "ms", "us", "ns", "none"]

def key (layout : Bytes) : Bytes :=
  Bytes.ofChars ((layout.chars.map lowerAscii).filter fun c => c.isLower || c.isDigit)

/-- The layout that a setting stands for; none means that no time is written. -/
def resolve (setting : Bytes) : Option Bytes :=
  if (key setting).isEmpty then none
  else
    match named.find? (fun (name, _) => utf8 name == key setting) with
    | some (_, "") => none
    | some (_, layout) => some (utf8 layout)
    | none => if setting.isEmpty then none else some setting

def text (setting : Bytes) (t : Instant) : Bytes :=
  match resolve setting with
  | some layout => format layout t
  | none => []

end TimeLayout

namespace Instant

/-- All digits that matter, as JSON records show a time. -/
def nanosText (t : Instant) : Bytes :=
  TimeLayout.format (utf8 "2006-01-02T15:04:05.999999999Z07:00") t

/-- Milliseconds, as plain text records show a time. A tenth of a millisecond is added, so that
four digits are written, and the byte at the place of the fourth is taken out: in a year of four
digits that is the fourth digit, in a longer one something before it. -/
def millisText (t : Instant) : Bytes :=
  (nanosText { t with nanos := t.nanos / 1000000 * 1000000 + 100000 }).eraseIdx 23

/-- The long form, as pretty records show a time. -/
def longText (t : Instant) : Bytes :=
  TimeLayout.format (utf8 "2006-01-02 15:04:05.999999999 -0700 MST") t

end Instant

namespace Duration

def decimal (n places : Nat) : Bytes :=
  let fraction := TimeLayout.padded 0x30 places (n % Nat.pow 10 places)
  let kept := (fraction.reverse.dropWhile (· = 0x30)).reverse
  Bytes.ofNat (n / Nat.pow 10 places) ++ if kept.isEmpty then [] else 0x2E :: kept

def magnitudeText (n : Nat) : Bytes :=
  if n = 0 then utf8 "0s"
  else if n < 1000 then Bytes.ofNat n ++ utf8 "ns"
  else if n < 1000000 then decimal n 3 ++ utf8 "µs"
  else if n < 1000000000 then decimal n 6 ++ utf8 "ms"
  else
    let seconds := decimal (n % 60000000000) 9 ++ utf8 "s"
    let minutes := n / 60000000000
    if minutes = 0 then seconds
    else if minutes < 60 then Bytes.ofNat minutes ++ utf8 "m" ++ seconds
    else Bytes.ofNat (minutes / 60) ++ utf8 "h" ++ Bytes.ofNat (minutes % 60) ++ utf8 "m" ++ seconds

/-- Hours, minutes and seconds; a span below a second in the largest unit that fits. -/
def text (d : Duration) : Bytes :=
  if d.nanos < 0 then 0x2D :: magnitudeText d.nanos.natAbs else magnitudeText d.nanos.natAbs

end Duration

end Scribe
