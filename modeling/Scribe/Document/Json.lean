import Scribe.Document.Basic

/-!
# JSON text

Compact, or with one field or item per line. Documents with a number that is not finite have none,
nor have documents in which too many lists and records stand in each other.
-/

namespace Scribe

namespace Json

/-- How a JSON string escapes beyond what JSON demands. -/
structure Escapes where
  /-- Whether `<`, `>` and `&` are escaped, so that the text can stand inside HTML. -/
  html : Bool
  /-- Whether backspace and form feed have a letter of their own, as the other blanks do. -/
  letters : Bool

def shortEscape? (escapes : Escapes) (c : Char) : Option UInt8 :=
  match c.toNat with
  | 8 => if escapes.letters then some 0x62 else none
  | 9 => some 0x74
  | 10 => some 0x6E
  | 12 => if escapes.letters then some 0x66 else none
  | 13 => some 0x72
  | 34 => some 0x22
  | 92 => some 0x5C
  | _ => none

def rune (escapes : Escapes) (r : Rune) : Bytes :=
  let code (n : Nat) : Bytes := utf8 "\\u" ++ Bytes.hex n 4
  if r.isMalformed then utf8Char Rune.replacement
  else
    match shortEscape? escapes r.char with
    | some b => [0x5C, b]
    | none =>
        let n := r.char.toNat
        if n < 0x20 || n = 0x2028 || n = 0x2029 then code n
        else if escapes.html && (n = 0x3C || n = 0x3E || n = 0x26) then code n
        else r.bytes

def string (escapes : Escapes) (text : Bytes) : Bytes :=
  [Bytes.quote] ++ text.runes.flatMap (rune escapes) ++ [Bytes.quote]

/-- Documents are written so that they can stand inside HTML. -/
def forDocuments : Escapes := ⟨true, true⟩

def newLine (indent level : Nat) : Bytes :=
  if indent = 0 then [] else Bytes.lineFeed :: Bytes.spaces (indent * level)

def colon (indent : Nat) : Bytes := if indent = 0 then utf8 ":" else utf8 ": "

mutual

/-- The text of a document at nesting `level`, followed by `tail`. -/
def onto (indent level : Nat) : Document → (tail : Bytes) → Bytes
  | .null, tail => utf8 "null" ++ tail
  | .boolean b, tail => Value.ofBool b ++ tail
  | .integer n, tail => Bytes.ofInt n ++ tail
  | .number f, tail => Layout.json.number f ++ tail
  | .text s, tail => string forDocuments s ++ tail
  | .list [], tail => utf8 "[]" ++ tail
  | .list (d :: ds), tail =>
      0x5B :: (newLine indent (level + 1) ++ onto indent (level + 1) d
        (itemsOnto indent (level + 1) ds (newLine indent level ++ 0x5D :: tail)))
  | .record [], tail => utf8 "\x7b\x7d" ++ tail
  | .record ((key, d) :: fields), tail =>
      0x7B :: (newLine indent (level + 1) ++ string forDocuments key ++ colon indent ++
        onto indent (level + 1) d
          (fieldsOnto indent (level + 1) fields (newLine indent level ++ 0x7D :: tail)))

def itemsOnto (indent level : Nat) : List Document → (tail : Bytes) → Bytes
  | [], tail => tail
  | d :: ds, tail =>
      0x2C :: (newLine indent level ++ onto indent level d (itemsOnto indent level ds tail))

def fieldsOnto (indent level : Nat) : List (Bytes × Document) → (tail : Bytes) → Bytes
  | [], tail => tail
  | (key, d) :: fields, tail =>
      0x2C :: (newLine indent level ++ string forDocuments key ++ colon indent ++
        onto indent level d (fieldsOnto indent level fields tail))

end

inductive Refusal where
  | notFinite (f : Float)
  /-- Too many lists and records stand in each other. -/
  | tooDeep

def Refusal.message : Refusal → Bytes
  | .notFinite f => utf8 "json: unsupported value: " ++ Layout.json.number f
  | .tooDeep => utf8 "exceeded max depth"

def maxDepth : Nat := 10000

mutual

/-- The first reason not to write a document around which `depth` lists and records stand. An empty
list or record is a level of its own only where it is laid out. -/
def refusal? (laidOut : Bool) (depth : Nat) : Document → Option Refusal
  | .null | .boolean _ | .integer _ | .text _ => none
  | .number f => if f.isNaN || f.isInf then some (.notFinite f) else none
  | .list items =>
      if maxDepth ≤ depth && (laidOut || !items.isEmpty) then some .tooDeep
      else itemsRefusal? laidOut (depth + 1) items
  | .record fields =>
      if maxDepth ≤ depth && (laidOut || !fields.isEmpty) then some .tooDeep
      else fieldsRefusal? laidOut (depth + 1) fields

def itemsRefusal? (laidOut : Bool) (depth : Nat) : List Document → Option Refusal
  | [] => none
  | d :: ds => (refusal? laidOut depth d).or (itemsRefusal? laidOut depth ds)

def fieldsRefusal? (laidOut : Bool) (depth : Nat) : List (Bytes × Document) → Option Refusal
  | [] => none
  | (_, d) :: fields => (refusal? laidOut depth d).or (fieldsRefusal? laidOut depth fields)

end

end Json

namespace Document

/-- A document as JSON with a final line feed. An indent that is not positive gives compact
text. -/
def json (indent : Int) (d : Document) : Bytes :=
  Json.onto indent.toNat 0 d [Bytes.lineFeed]

/-- The JSON text of a document, or why it has none. Text is laid out after it has been written
compactly. -/
def json? (indent : Int) (d : Document) : Except Json.Refusal Bytes :=
  let layout? := if 0 < indent then Json.refusal? true 0 d else none
  match (Json.refusal? false 0 d).or layout? with
  | some refusal => .error refusal
  | none => .ok (d.json indent)

end Document

end Scribe
