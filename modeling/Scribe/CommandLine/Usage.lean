import Scribe.CommandLine.Command
import Scribe.Document.Basic
import Scribe.Text.Quoted

/-!
# Usage errors

What may be wrong with a command line or with the value that a configuration gives to a flag.
-/

namespace Scribe

inductive Obstacle where
  | finish
  | longFlag (text : Bytes)
  | shortFlag (text : Bytes)
  deriving DecidableEq

inductive Usage where
  /-- A flag that there is not, with the flags that look like it. -/
  | unknownFlag (flag : Bytes) (similar : List Bytes)
  | unexpectedArgument (word : Bytes)
  | missingValue (flag kind : String) (obstacle : Obstacle)
  | missingList (flag : String)
  | badSwitch (flag : String) (got : Bytes)
  | badInteger (flag : String) (got : Bytes)
  | notAllowed (flag : String) (choices : List String) (got : Bytes)
  /-- A configuration value of the wrong type. -/
  | notSwitch (flag : String) (got : Document)
  | notInteger (flag : String) (got : Document)
  | notText (flag : String) (got : Document)
  | notTexts (flag : String) (got : List Document) (wrong : Document)

/-! ## Similar names -/

/-- The next row of edit distances, given the row before it. `corner` and `left` are the
distances above left and left of the next one. -/
def editRow (a : Char) (corner left : Nat) : List Char → List Nat → List Nat
  | b :: bs, above :: row =>
      let here := min (min (above + 1) (left + 1)) (if a = b then corner else corner + 1)
      here :: editRow a above here bs row
  | _, _ => []

def editDistance (s t : List Char) : Nat :=
  let step (row : List Nat) (a : Char) : List Nat :=
    match row with
    | [] => []
    | corner :: above => (corner + 1) :: editRow a corner (corner + 1) t above
  ((s.foldl step (List.range (t.length + 1))).getLast?).getD 0

/-- Whether a name looks like a text: it starts with it, or little of it differs. -/
def isSimilar (text name : Bytes) : Bool :=
  Bytes.startsWith name text || editDistance name.chars text.chars ≤ 2

/-! ## Types of configuration values -/

namespace Document

def typeName : Document → String
  | .null => "<nil>"
  | .boolean _ => "bool"
  | .integer _ => "int"
  | .number _ => "float64"
  | .text _ => "string"
  | .list _ => "[]interface \x7b\x7d"
  | .record _ => "map[string]interface \x7b\x7d"

def kindName : Document → String
  | .null => "null"
  | .boolean _ => "bool"
  | .integer _ | .number _ => "number"
  | .text _ => "string"
  | .list _ => "array"
  | .record _ => "object"

mutual

def plainText : Document → Bytes
  | .null => utf8 "<nil>"
  | .boolean b => Value.ofBool b
  | .integer n => Bytes.ofInt n
  | .number f => Layout.general.number f
  | .text s => s
  | .list ds => utf8 "[" ++ Bytes.join [Bytes.space] (plainTexts ds) ++ utf8 "]"
  | .record fs => utf8 "map[" ++ Bytes.join [Bytes.space] (plainFields fs) ++ utf8 "]"

def plainTexts : List Document → List Bytes
  | [] => []
  | d :: ds => plainText d :: plainTexts ds

def plainFields : List (Bytes × Document) → List Bytes
  | [] => []
  | (k, d) :: fs => (k ++ utf8 ":" ++ plainText d) :: plainFields fs

end

mutual

/-- A document with its texts quoted and everything else marked as not to be quoted. -/
def quotedText : Document → Bytes
  | .null => utf8 "%!q(<nil>)"
  | .text s => Bytes.quoted s
  | .list ds => utf8 "[" ++ Bytes.join [Bytes.space] (quotedTexts ds) ++ utf8 "]"
  | .record fs => utf8 "map[" ++ Bytes.join [Bytes.space] (quotedFields fs) ++ utf8 "]"
  | .boolean b => utf8 "%!q(bool=" ++ Value.ofBool b ++ utf8 ")"
  | .integer n => utf8 "%!q(int=" ++ Bytes.ofInt n ++ utf8 ")"
  | .number f => utf8 "%!q(float64=" ++ Layout.general.number f ++ utf8 ")"

def quotedTexts : List Document → List Bytes
  | [] => []
  | d :: ds => quotedText d :: quotedTexts ds

def quotedFields : List (Bytes × Document) → List Bytes
  | [] => []
  | (k, d) :: fs => (Bytes.quoted k ++ utf8 ":" ++ quotedText d) :: quotedFields fs

end

mutual

def typedText : Document → Bytes
  | .null => utf8 "interface \x7b\x7d(nil)"
  | .boolean b => Value.ofBool b
  | .integer n => Bytes.ofInt n
  | .number f => Layout.general.number f
  | .text s => Bytes.quoted s
  | .list ds =>
      utf8 "[]interface \x7b\x7d\x7b" ++ Bytes.join (utf8 ", ") (typedTexts ds) ++ utf8 "\x7d"
  | .record fs =>
      utf8 "map[string]interface \x7b\x7d\x7b" ++ Bytes.join (utf8 ", ") (typedFields fs) ++
        utf8 "\x7d"

def typedTexts : List Document → List Bytes
  | [] => []
  | d :: ds => typedText d :: typedTexts ds

def typedFields : List (Bytes × Document) → List Bytes
  | [] => []
  | (k, d) :: fs => (Bytes.quoted k ++ utf8 ":" ++ typedText d) :: typedFields fs

end

end Document

/-! ## Wording -/

namespace Obstacle

def shown : Obstacle → Bytes × String
  | .finish => (utf8 "EOL", "<EOL>")
  | .longFlag text => (text, "long flag")
  | .shortFlag text => (text, "short flag")

end Obstacle

namespace Usage

def similarHint (similar : List Bytes) : Bytes :=
  match similar.map Bytes.quoted with
  | [] => []
  | [one] => utf8 ", did you mean " ++ one ++ utf8 "?"
  | more => utf8 ", did you mean one of " ++ Bytes.join (utf8 ", ") more ++ utf8 "?"

def about (flag : String) (text : Bytes) : Bytes := utf8 "--" ++ utf8 flag ++ utf8 ": " ++ text

def mismatch (shown : Bytes) (target : String) (wrong : Document) : Bytes :=
  shown ++ utf8 " -> " ++ utf8 target ++ utf8 ": json: cannot unmarshal " ++ utf8 wrong.kindName ++
    utf8 " into Go value of type string"

def message : Usage → Bytes
  | .unknownFlag flag similar => utf8 "unknown flag " ++ flag ++ similarHint similar
  | .unexpectedArgument word => utf8 "unexpected argument " ++ word
  | .missingValue flag kind obstacle =>
      let (text, word) := obstacle.shown
      let problem :=
        about flag (utf8 "expected " ++ utf8 kind ++ utf8 " value but got " ++ Bytes.quoted text ++
          utf8 " (" ++ utf8 word ++ utf8 ")")
      match obstacle with
      | .finish => problem
      | _ =>
          problem ++ utf8 "; perhaps try --" ++ utf8 flag ++ utf8 "=" ++ Bytes.quoted text ++
            utf8 "?"
  | .missingList flag => about flag (utf8 "missing value, expecting \"<arg>,...\"")
  | .badSwitch flag got =>
      about flag (utf8 "bool value must be true, 1, yes, false, 0 or no but got " ++
        Bytes.quoted got)
  | .badInteger flag got =>
      about flag (utf8 "expected a valid 64 bit int but got " ++ Bytes.quoted got)
  | .notAllowed flag choices got =>
      utf8 "--" ++ utf8 flag ++ utf8 " must be one of " ++
        Bytes.join (utf8 ",") (choices.map fun c => Bytes.quoted (utf8 c)) ++ utf8 " but got " ++
        Bytes.quoted got
  | .notSwitch flag got =>
      about flag (utf8 "expected bool but got " ++ got.quotedText ++ utf8 " (" ++
        utf8 got.typeName ++ utf8 ")")
  | .notInteger flag got =>
      about flag (utf8 "expected an int but got " ++ Bytes.quoted got.plainText ++ utf8 " (" ++
        utf8 got.typeName ++ utf8 ")")
  | .notText flag got => about flag (mismatch got.typedText "*string" got)
  | .notTexts flag got wrong =>
      about flag (mismatch (Document.list got).typedText "*[]string" wrong)

end Usage

end Scribe
