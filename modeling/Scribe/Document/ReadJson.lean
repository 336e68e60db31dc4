import Scribe.Decimal.Read
import Scribe.Document.Basic
import Scribe.Text.Quoted
import Scribe.Text.Space

/-!
# Reading JSON

The first value of a JSON text; what follows it is not looked at. Malformed bytes in a string
read as U+FFFD, and so do halves of surrogate pairs. Of fields with one name the last counts.
-/

namespace Scribe

inductive JsonFault where
  /-- There is nothing but white space. -/
  | blank
  | cutOff
  | unexpected (r : Rune) (place : String)
  /-- A backslash in a string with something behind it that it does not escape. -/
  | unknownEscape (spelling : Bytes)
  /-- Too many lists and records stand in each other. -/
  | tooDeep
  /-- The value is of another kind than a record. -/
  | notRecord (kind : String)
  deriving DecidableEq

namespace JsonFault

def quotedRune (r : Rune) : Bytes :=
  let inner :=
    if r.char = '\'' then utf8 "\\'"
    else if r.char = '"' then utf8 "\""
    else Quoted.rune r
  utf8 "'" ++ inner ++ utf8 "'"

/-- An escape between backquotes, or quoted where it would not be readable. -/
def quotedEscape (spelling : Bytes) : Bytes :=
  let isClear (r : Rune) : Bool :=
    r.char != '\x60' && r.char != Rune.replacement && !isSpace r.char && isPrintable r.char
  if spelling.runes.all isClear then utf8 "\x60" ++ spelling ++ utf8 "\x60" else spelling.quoted

def message : JsonFault → Bytes
  | .blank => utf8 "EOF"
  | .cutOff => utf8 "unexpected EOF"
  | .unexpected r place => utf8 "invalid character " ++ quotedRune r ++ utf8 " " ++ utf8 place
  | .unknownEscape spelling =>
      utf8 "invalid escape sequence " ++ quotedEscape spelling ++ utf8 " in string"
  | .tooDeep => utf8 "exceeded max depth"
  | .notRecord kind =>
      utf8 "json: cannot unmarshal " ++ utf8 kind ++
        utf8 " into Go value of type map[string]interface \x7b\x7d"

end JsonFault

namespace JsonText

abbrev Reader (α : Type) := Except JsonFault (α × Bytes)

def isBlankByte (b : UInt8) : Bool := b = 0x20 || b = 0x09 || b = 0x0A || b = 0x0D

def skipBlanks (text : Bytes) : Bytes := text.dropWhile isBlankByte

def fail (text : Bytes) (place : String) : JsonFault :=
  match text with
  | [] => .cutOff
  | b :: rest => .unexpected (Rune.first b rest).1 place

/-! ## Strings -/

/-- A unit of sixteen bits that follows a backslash and `u`: four hexadecimal digits. -/
def unit (text : Bytes) : Reader Nat :=
  let digits := (text.take 4).filterMap Bytes.digitValue?
  let spelling (tail : Bytes) : Bytes := utf8 "\\u" ++ tail
  if digits.length = 4 then .ok (digits.foldl (fun n d => n * 16 + d) 0, text.drop 4)
  else if 4 ≤ text.length then .error (.unknownEscape (spelling (text.take 4)))
  else if digits.length = text.length then .error .cutOff
  else .error (.unknownEscape (spelling text))

def pair? (high low : Nat) : Option Char :=
  if 0xD800 ≤ high && high < 0xDC00 && 0xDC00 ≤ low && low < 0xE000 then
    some (Char.ofNat ((high - 0xD800) * 0x400 + (low - 0xDC00) + 0x10000))
  else none

def ofUnit (n : Nat) : Char := if n.isValidChar then Char.ofNat n else Rune.replacement

def escape (text : Bytes) : Reader Bytes :=
  match text with
  | [] => .error .cutOff
  | b :: rest =>
      if b = 0x22 || b = 0x5C || b = 0x2F then .ok ([b], rest)
      else if b = 0x62 then .ok ([0x08], rest)
      else if b = 0x66 then .ok ([0x0C], rest)
      else if b = 0x6E then .ok ([0x0A], rest)
      else if b = 0x72 then .ok ([0x0D], rest)
      else if b = 0x74 then .ok ([0x09], rest)
      else if b = 0x75 then
        match unit rest with
        | .error e => .error e
        | .ok (n, rest) =>
            let single : Reader Bytes := .ok (utf8Char (ofUnit n), rest)
            match rest with
            | 0x5C :: 0x75 :: more =>
                match unit more with
                | .ok (m, after) =>
                    match pair? n m with
                    | some c => .ok (utf8Char c, after)
                    | none => single
                | .error _ => single
            | _ => single
      else .error (.unknownEscape [0x5C, b])

/-- The rest of a string behind its opening quote; `done` holds pieces, last first. -/
def string : (fuel : Nat) → (done : List Bytes) → Bytes → Reader Bytes
  | 0, _, _ => .error .cutOff
  | _ + 1, _, [] => .error .cutOff
  | fuel + 1, done, b :: rest =>
      if b = 0x22 then .ok (Bytes.ofChars (Bytes.chars done.reverse.flatten), rest)
      else if b = 0x5C then
        match escape rest with
        | .ok (piece, rest) => string fuel (piece :: done) rest
        | .error e => .error e
      else if b < 0x20 then .error (fail (b :: rest) "in string")
      else string fuel ([b] :: done) rest

/-! ## Numbers and words -/

def digits (text : Bytes) : Reader Bytes :=
  let found := text.takeWhile Bytes.isDigit
  if found.isEmpty then .error (fail text "in numeric literal")
  else .ok (found, text.dropWhile Bytes.isDigit)

/-- Digits before the point: a zero stands alone. -/
def whole (text : Bytes) : Reader Bytes :=
  match text with
  | 0x30 :: rest => .ok ([0x30], rest)
  | text => digits text

def fraction (text : Bytes) : Reader Bytes :=
  match text with
  | 0x2E :: rest => (digits rest).map fun (ds, rest) => (0x2E :: ds, rest)
  | text => .ok ([], text)

def exponent (text : Bytes) : Reader Bytes :=
  match text with
  | [] => .ok ([], [])
  | e :: rest =>
      if e = 0x65 || e = 0x45 then
        let (signed, rest) :=
          match rest with
          | s :: more => if s = 0x2B || s = 0x2D then ([s], more) else ([], rest)
          | [] => ([], [])
        (digits rest).map fun (ds, rest) => (e :: signed ++ ds, rest)
      else .ok ([], text)

def unsigned (text : Bytes) : Reader Bytes :=
  match whole text with
  | .error e => .error e
  | .ok (w, text) =>
      match fraction text with
      | .error e => .error e
      | .ok (f, text) => (exponent text).map fun (e, text) => (w ++ f ++ e, text)

def number (text : Bytes) : Reader Document :=
  let (minus, text) : Bytes × Bytes :=
    match text with
    | 0x2D :: rest => ([0x2D], rest)
    | text => ([], text)
  (unsigned text).map fun (magnitude, text) =>
    (.number ((Decimal.read? (minus ++ magnitude)).getD 0), text)

def word (name : String) (d : Document) : (expected : Bytes) → Bytes → Reader Document
  | [], text => .ok (d, text)
  | _ :: _, [] => .error .cutOff
  | e :: expected, b :: rest =>
      if b = e then word name d expected rest
      else .error (fail (b :: rest) ("in literal " ++ name))

/-! ## Values -/

def setField (k : Bytes) (v : Document) : List (Bytes × Document) → List (Bytes × Document)
  | [] => [(k, v)]
  | (k', w) :: rest =>
      if k < k' then (k, v) :: (k', w) :: rest
      else if k = k' then (k, v) :: rest
      else (k', w) :: setField k v rest

def maxDepth : Nat := 10000

mutual

/-- A value around which `depth` lists and records stand. -/
def value : (fuel depth : Nat) → Bytes → Reader Document
  | 0, _, _ => .error .cutOff
  | fuel + 1, depth, text =>
      match skipBlanks text with
      | [] => .error .cutOff
      | b :: rest =>
          if depth = maxDepth && (b = 0x7B || b = 0x5B) then .error .tooDeep
          else if b = 0x7B then
            match skipBlanks rest with
            | 0x7D :: rest => .ok (.record [], rest)
            | rest => fields fuel (depth + 1) [] rest
          else if b = 0x5B then
            match skipBlanks rest with
            | 0x5D :: rest => .ok (.list [], rest)
            | rest => items fuel (depth + 1) [] rest
          else if b = 0x22 then
            (string (rest.length + 1) [] rest).map fun (s, rest) => (.text s, rest)
          else if b = 0x2D || Bytes.isDigit b then number (b :: rest)
          else if b = 0x74 then word "true" (.boolean true) (utf8 "rue") rest
          else if b = 0x66 then word "false" (.boolean false) (utf8 "alse") rest
          else if b = 0x6E then word "null" .null (utf8 "ull") rest
          else .error (fail (b :: rest) "looking for beginning of value")

def items : (fuel depth : Nat) → (done : List Document) → Bytes → Reader Document
  | 0, _, _, _ => .error .cutOff
  | fuel + 1, depth, done, text =>
      match value fuel depth text with
      | .error e => .error e
      | .ok (v, rest) =>
          match skipBlanks rest with
          | 0x2C :: rest => items fuel depth (v :: done) rest
          | 0x5D :: rest => .ok (.list (v :: done).reverse, rest)
          | rest => .error (fail rest "after array element")

def fields : (fuel depth : Nat) → (done : List (Bytes × Document)) → Bytes → Reader Document
  | 0, _, _, _ => .error .cutOff
  | fuel + 1, depth, done, text =>
      match skipBlanks text with
      | 0x22 :: rest =>
          match string (rest.length + 1) [] rest with
          | .error e => .error e
          | .ok (k, rest) =>
              match skipBlanks rest with
              | 0x3A :: rest =>
                  match value fuel depth rest with
                  | .error e => .error e
                  | .ok (v, rest) =>
                      let done := setField k v done
                      match skipBlanks rest with
                      | 0x2C :: rest => fields fuel depth done rest
                      | 0x7D :: rest => .ok (.record done, rest)
                      | rest => .error (fail rest "after object key:value pair")
              | rest => .error (fail rest "after object key")
      | rest => .error (fail rest "looking for beginning of object key string")

end

end JsonText

namespace Document

def readJson (text : Bytes) : Except JsonFault Document :=
  if (JsonText.skipBlanks text).isEmpty then .error .blank
  else (JsonText.value (text.length + 1) 0 text).map Prod.fst

/-- The fields of the record that a JSON text starts with; null has none. -/
def readJsonRecord (text : Bytes) : Except JsonFault (List (Bytes × Document)) :=
  match readJson text with
  | .error e => .error e
  | .ok (.record fields) => .ok fields
  | .ok .null => .ok []
  | .ok (.list _) => .error (.notRecord "array")
  | .ok (.text _) => .error (.notRecord "string")
  | .ok (.boolean _) => .error (.notRecord "bool")
  | .ok _ => .error (.notRecord "number")

end Document

end Scribe
