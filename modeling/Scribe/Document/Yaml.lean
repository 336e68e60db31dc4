import Scribe.Decimal.Read
import Scribe.Document.Basic
import Scribe.Document.Timestamp

/-!
# YAML text

Block style with one entry per line, or flow style on a single line. A text is quoted when it
would otherwise read as something else.
-/

namespace Scribe

namespace Yaml

/-- Words that read as null or as a boolean. -/
def reserved : List String :=
  ["null", "Null", "NULL", "~", "true", "True", "TRUE", "false", "False", "FALSE", "y", "Y",
    "yes", "Yes", "YES", "n", "N", "no", "No", "NO", "on", "On", "ON", "off", "Off", "OFF"]

def dropOne (mark : UInt8) : Bytes → Bytes
  | b :: rest => if b = mark then rest else b :: rest
  | [] => []

def isInteger (base : Nat) (digits : Bytes) : Bool :=
  !digits.isEmpty && digits.all fun b => (Bytes.digitValue? b).any (· < base)

def isNumber (text : Bytes) : Bool :=
  let points := text.count 0x2E
  let body := (dropOne 0x2D (dropOne 0x2B text)).filter (· ≠ 0x5F)
  if Bytes.startsWith text [0x5F] || 1 < points then false
  else
    match body with
    | 0x30 :: 0x78 :: digits => isInteger 16 digits
    | 0x30 :: 0x6F :: digits => isInteger 8 digits
    | 0x30 :: 0x62 :: digits => isInteger 2 digits
    | _ =>
        if points = 1 then
          (Decimal.read? (if Bytes.startsWith text [0x2D] then 0x2D :: body else body)).isSome
        else if Bytes.startsWith body [0x30] && 1 < body.length then isInteger 8 body
        else isInteger 10 body

/-- Bytes that start something other than plain text. -/
def indicators : Bytes := utf8 "*&[\x7b\x7d],!|>%'\"@ \x60"

/-- Whether `:` or `-` stands before a space, or `#` or a backslash anywhere. -/
def hasBreak : Bytes → Bool
  | [] => false
  | b :: rest =>
      b = 0x23 || b = 0x5C || ((b = 0x3A || b = 0x2D) && Bytes.startsWith rest [Bytes.space]) ||
        hasBreak rest

def needsQuotes (text : Bytes) : Bool :=
  match text.head?, text.getLast? with
  | some first, some last =>
      (reserved.any fun word => utf8 word == text) || isNumber text || text == [0x2D] ||
        indicators.contains first || last = 0x3A || last = Bytes.space ||
        Timestamp.isTimestamp text || hasBreak text
  | _, _ => true

def breaksFlow : Bytes → Bool
  | [] => false
  | b :: rest =>
      b = 0x5D || b = 0x7D || b = 0x2C || b = 0x27 || b = 0x22 ||
        (b = 0x3A && !Bytes.startsWith rest [0x2F]) || breaksFlow rest

def scalarText (flow : Bool) (text : Bytes) : Bytes :=
  if needsQuotes text || (flow && breaksFlow text) then text.quoted else text

mutual

def flow : Document → Bytes
  | .null => utf8 "null"
  | .boolean b => Value.ofBool b
  | .integer n => Bytes.ofInt n
  | .number f => Layout.yaml.number f
  | .text s => scalarText true s
  | .list ds => [0x5B] ++ Bytes.join (utf8 ", ") (flowItems ds) ++ [0x5D]
  | .record fields => [0x7B] ++ Bytes.join (utf8 ", ") (flowFields fields) ++ [0x7D]

def flowItems : List Document → List Bytes
  | [] => []
  | d :: ds => flow d :: flowItems ds

def flowFields : List (Bytes × Document) → List Bytes
  | [] => []
  | (key, d) :: fields => (scalarText true key ++ utf8 ": " ++ flow d) :: flowFields fields

end

def dashed : List Bytes → List Bytes
  | [] => [[0x2D]]
  | line :: lines => (utf8 "- " ++ line) :: lines.map (utf8 "  " ++ ·)

mutual

def block (indent : Nat) : Document → List Bytes
  | .null => [utf8 "null"]
  | .boolean b => [Value.ofBool b]
  | .integer n => [Bytes.ofInt n]
  | .number f => [Layout.yaml.number f]
  | .text s => [scalarText false s]
  | .list [] => [utf8 "[]"]
  | .list (d :: ds) => dashed (block indent d) ++ blockItems indent ds
  | .record [] => [utf8 "\x7b\x7d"]
  | .record ((key, d) :: fields) =>
      entry indent (scalarText false key) d ++ blockFields indent fields

def blockItems (indent : Nat) : List Document → List Bytes
  | [] => []
  | d :: ds => dashed (block indent d) ++ blockItems indent ds

def blockFields (indent : Nat) : List (Bytes × Document) → List Bytes
  | [] => []
  | (key, d) :: fields => entry indent (scalarText false key) d ++ blockFields indent fields

/-- A field: sequences stand under their key, mappings are indented. -/
def entry (indent : Nat) (key : Bytes) : Document → List Bytes
  | .list (d :: ds) => (key ++ [0x3A]) :: dashed (block indent d) ++ blockItems indent ds
  | .record ((inner, d) :: fields) =>
      (key ++ [0x3A]) ::
        (entry indent (scalarText false inner) d ++ blockFields indent fields).map
          (Bytes.spaces indent ++ ·)
  | .null => [key ++ utf8 ": null"]
  | .boolean b => [key ++ utf8 ": " ++ Value.ofBool b]
  | .integer n => [key ++ utf8 ": " ++ Bytes.ofInt n]
  | .number f => [key ++ utf8 ": " ++ Layout.yaml.number f]
  | .text s => [key ++ utf8 ": " ++ scalarText false s]
  | .list [] => [key ++ utf8 ": []"]
  | .record [] => [key ++ utf8 ": \x7b\x7d"]

end

end Yaml

/-- A document as YAML: block style with a positive indent, flow style otherwise. -/
def Document.yaml (indent : Int) (d : Document) : Bytes :=
  if 0 < indent then (Yaml.block indent.toNat d).flatMap (· ++ [Bytes.lineFeed])
  else Yaml.flow d ++ [Bytes.lineFeed]

end Scribe
