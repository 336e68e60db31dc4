import Scribe.Decimal.Integer
import Scribe.Text.Case
import Scribe.Text.Space

/-!
# Log levels

A level is a 64-bit number. Five of them are defined; every other level is named by its distance
to a defined one, and reading a name gives the level back.
-/

namespace Scribe

structure Level where
  code : Int64
  deriving DecidableEq, Repr

namespace Level

def trace : Level := ⟨-8⟩
def debug : Level := ⟨-4⟩
def info : Level := ⟨0⟩
def warn : Level := ⟨4⟩
def error : Level := ⟨8⟩

def defined : List (Level × String) :=
  [(trace, "trace"), (debug, "debug"), (info, "info"), (warn, "warn"), (error, "error")]

def default : Level := info

/-- Whether a logger of level `least` keeps a record of this level. -/
def reaches (l least : Level) : Bool := least.code ≤ l.code

/-- The last defined level that does not exceed `l`; below all of them the first. -/
def base (l : Level) : Level × String :=
  defined.foldl (fun best d => if l.reaches d.1 then d else best) (trace, "trace")

/-- A defined level's own name, else the distance to the defined level below; under `trace` the
distance down from `debug`. -/
def name (l : Level) : Bytes :=
  match defined.find? (·.1 = l) with
  | some (_, name) => utf8 name
  | none =>
      if l.code < trace.code then utf8 "debug" ++ Bytes.ofInt (l.code - debug.code).toInt
      else utf8 l.base.2 ++ [0x2B] ++ Bytes.ofInt (l.code - l.base.1.code).toInt

def label (l : Level) : Bytes := Bytes.upper l.name

def isSign (b : UInt8) : Bool := b = 0x2B || b = 0x2D

/-- The levels that a name read without regard to case may stand for; `trace` is not among them,
being read relative to `debug`. -/
def ofBaseName? (name : Bytes) : Option Level :=
  let upper := Bytes.ofChars (name.chars.map upperCase)
  if upper = utf8 "DEBUG" then some debug
  else if upper = utf8 "INFO" then some info
  else if upper = utf8 "WARN" then some warn
  else if upper = utf8 "ERROR" then some error
  else none

def readPlain? (text : Bytes) : Option Level :=
  let name := text.takeWhile (!isSign ·)
  match text.dropWhile (!isSign ·) with
  | [] => ofBaseName? name
  | rest =>
      match Decimal.readDigits? rest, ofBaseName? name with
      | some distance, some base => some ⟨base.code + Int64.ofInt distance⟩
      | _, _ => none

/-- Reads a level name; a text that is none gives the default level. -/
def read (text : Bytes) : Level :=
  let text := Bytes.trim text
  if 5 ≤ text.length && Bytes.lower (text.take 5) = utf8 "trace" then
    match readPlain? (utf8 "debug" ++ text.drop 5) with
    | some l => ⟨l.code + trace.code - debug.code⟩
    | none => default
  else (readPlain? text).getD default

end Level

/-- How records are written. A format that is neither text nor JSON keeps its number and writes
nothing. -/
inductive RecordFormat where
  | text
  | json
  | unnamed (code : Int)
  deriving DecidableEq, Repr

namespace RecordFormat

def name : RecordFormat → Bytes
  | .text => utf8 "text"
  | .json => utf8 "json"
  | .unnamed code => utf8 "Format(" ++ Bytes.ofInt code ++ utf8 ")"

def defined : List RecordFormat := [.text, .json]

def default : RecordFormat := .text

def ofCode : Int → RecordFormat
  | 0 => .text
  | 1 => .json
  | code => .unnamed code

/-- Reads a format name; a text that is none gives the default format. -/
def read (text : Bytes) : RecordFormat :=
  let word := Bytes.lower (Bytes.trim text)
  if word = utf8 "json" then .json else default

end RecordFormat

end Scribe
