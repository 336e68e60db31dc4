import Scribe.Journal.Field
import Scribe.Journal.Level
import Scribe.Terminal.Colour
import Scribe.Text.Quoted

/-!
# Pretty records

A record in colour, as one line of `key=value` pairs or as an indented object. Groups are
flattened: the key of a leaf is its path, with dots between the names.
-/

namespace Scribe

namespace Colour

def ofLevel (l : Level) : Colour :=
  if l.reaches .error then .red
  else if l.reaches .warn then .yellow
  else if l.reaches .info then .green
  else .blue

end Colour

namespace Pretty

abbrev Entry := Bytes × Leaf

mutual

/-- The leaves of an attribute, with keys behind `path`. A leaf without a key is left out, a
group without a key adds nothing to the path. -/
def flatten (path key : Bytes) : Shown → List Entry
  | .leaf l => if key.isEmpty then [] else [(path ++ key, l)]
  | .group members => flattenAll (if key.isEmpty then path else path ++ key ++ [0x2E]) members

def flattenAll (path : Bytes) : List (Bytes × Shown) → List Entry
  | [] => []
  | (key, s) :: rest => flatten path key s ++ flattenAll path rest

end

def entries (path : Bytes) (attrs : List Attr) : List Entry :=
  flattenAll path (Field.allShown attrs)

/-- How a leaf is shown: its colour, its text, and whether an object holds it without quotes. -/
structure Look where
  colour : Colour
  text : Bytes
  bare : Bool

def levelKey : Bytes := utf8 "level"
def messageKey : Bytes := utf8 "msg"
def timeKey : Bytes := utf8 "time"

def look (key : Bytes) : Leaf → Look
  | .text s => ⟨if key = levelKey then Colour.ofLevel (Level.read s) else .cyan, s, false⟩
  | .int n => ⟨.yellow, Bytes.ofInt n, true⟩
  | .uint n => ⟨.yellow, Bytes.ofNat n, true⟩
  | .float f => ⟨.yellow, Layout.general.number f, !(f.isInf || f.isNaN)⟩
  | .boolean b => ⟨if b then .green else .red, Value.ofBool b, true⟩
  | .duration d => ⟨.magenta, d.text, false⟩
  | .time t => ⟨.blue, t.longText, false⟩
  | .failure s => ⟨.red, s, false⟩
  | .null => ⟨.gray, utf8 "null", true⟩
  | .texts items => ⟨.cyan, (Leaf.texts items).display, false⟩

def textEntry : Entry → Bytes
  | (key, l) =>
      let shown := look key l
      Colour.gray.paint key ++ utf8 "=" ++ shown.colour.paint shown.text

def jsonEntry : Entry → Bytes
  | (key, l) =>
      let shown := look key l
      utf8 "  " ++ Colour.gray.paint key.quoted ++ utf8 ": " ++
        shown.colour.paint (if shown.bare then shown.text else shown.text.quoted)

def textLine (fields : List Entry) : Bytes :=
  Bytes.join [Bytes.space] (fields.map textEntry) ++ [Bytes.lineFeed]

def jsonLines (fields : List Entry) : Bytes :=
  utf8 "\x7b\n" ++ Bytes.join (utf8 ",\n") (fields.map jsonEntry) ++ utf8 "\n\x7d\n"

end Pretty

/-- A writer of pretty records: the path of the groups opened so far, and the leaves that every
record carries. -/
structure Pretty where
  path : Bytes := []
  held : List Pretty.Entry := []

namespace Pretty

def withAttrs (h : Pretty) (attrs : List Attr) : Pretty :=
  { h with held := h.held ++ entries h.path attrs }

def withGroup (h : Pretty) (name : Bytes) : Pretty :=
  if name.isEmpty then h else { h with path := h.path ++ name ++ [0x2E] }

/-- The leaves of a record: those every record starts with, those held, and its own. The place in
the program that it was logged from, which could stand in front of the message, is left out. -/
def fields (h : Pretty) (time : Option Bytes) (level : Level) (message : Bytes)
    (attrs : List Attr) : List Entry :=
  (time.map fun text => (timeKey, Leaf.text text)).toList ++
    [(levelKey, .text level.label), (messageKey, .text message)] ++ h.held ++
    entries h.path attrs

def record (h : Pretty) (json : Bool) (time : Option Bytes) (level : Level) (message : Bytes)
    (attrs : List Attr) : Bytes :=
  let fields := h.fields time level message attrs
  if json then jsonLines fields else textLine fields

end Pretty

end Scribe
