import Scribe.Document.Json
import Scribe.Journal.Field
import Scribe.Journal.Level

/-!
# Plain records

A record on one line: `key=value` pairs with dotted group names, or a JSON object with nested
groups. A writer keeps the text of the attributes that every record carries.
-/

namespace Scribe

namespace Plain

structure Style where
  json : Bool
  /-- The time layout setting, for attributes named `time`. -/
  timeLayout : Bytes

def separator (style : Style) : Bytes := if style.json then utf8 "," else utf8 " "

/-- Whether a text stands between quotes: when it is empty or holds a space, a quote, an equals
sign, a control character or something that does not print. -/
def needsQuotes (text : Bytes) : Bool :=
  text.isEmpty || text.runes.any fun r =>
    if r.char.toNat < 0x80 then
      r.char.toNat ≤ 0x20 || r.char == '"' || r.char == '='
    else r.char == Rune.replacement || !isPrintable r.char

/-- Records name every control by its code, line ends and tabs apart. -/
def recordEscapes : Json.Escapes := ⟨false, false⟩

/-- A list inside a record is written as in a document, though not for HTML. -/
def listEscapes : Json.Escapes := ⟨false, true⟩

def string (style : Style) (text : Bytes) : Bytes :=
  if style.json then Json.string recordEscapes text
  else if needsQuotes text then text.quoted else text

def keyText (style : Style) (path key : Bytes) : Bytes :=
  if style.json then Json.string recordEscapes (path ++ key)
  else if path.isEmpty then string style key
  else if needsQuotes path || needsQuotes key then (path ++ key).quoted
  else path ++ key

def unsupported (reason : Bytes) : Bytes :=
  Json.string recordEscapes (utf8 "!ERROR:" ++ reason)

/-- A time as JSON, which has years of four digits only. -/
def jsonTime (t : Instant) : Bytes :=
  if 0 ≤ t.date.year && t.date.year ≤ 9999 then
    [Bytes.quote] ++ t.nanosText ++ [Bytes.quote]
  else unsupported (utf8 "time.Time year outside of range [0,9999]")

def leafText (style : Style) (l : Leaf) : Bytes :=
  match style.json, l with
  | true, .null => utf8 "null"
  | true, .float f =>
      if f.isNaN || f.isInf then
        unsupported (utf8 "json: unsupported value: " ++ Layout.json.number f)
      else Layout.json.number f
  | true, .duration d => Bytes.ofInt d.nanos
  | true, .time t => jsonTime t
  | true, .texts items =>
      utf8 "[" ++ Bytes.join (utf8 ",") (items.map (Json.string listEscapes)) ++ utf8 "]"
  | false, .time t => t.millisText
  | _, .text s => string style s
  | _, .failure s => string style s
  | false, .null => utf8 "<nil>"
  | false, .texts items => string style (Leaf.texts items).display
  | _, .int n => Bytes.ofInt n
  | _, .uint n => Bytes.ofNat n
  | _, .boolean b => Value.ofBool b
  | false, .float f => Layout.general.number f
  | false, .duration d => d.text

/-- A line being written: its text, what stands before the next key, and the path of the groups
that are open. -/
structure Pen where
  text : Bytes := []
  gap : Bytes := []
  path : Bytes := []

/-- An attribute named `time` follows the time layout; without a layout it is dropped. -/
def replaced (style : Style) (key : Bytes) (l : Leaf) : Option (Bytes × Leaf) :=
  match l with
  | .time t =>
      if key = utf8 "time" then
        let text := TimeLayout.text style.timeLayout t
        if text.isEmpty then none else some (key, .text text)
      else some (key, l)
  | .null => if key.isEmpty then none else some (key, l)
  | _ => some (key, l)

def leaf (style : Style) (key : Bytes) (l : Leaf) (pen : Pen) : Pen × Bool :=
  match replaced style key l with
  | none => (pen, false)
  | some (key, l) =>
      let path := if style.json then [] else pen.path
      let separated := separator style
      ({ pen with
          text := pen.text ++ pen.gap ++ keyText style path key ++
            (if style.json then utf8 ":" else utf8 "=") ++ leafText style l
          gap := separated }, true)

def openGroup (style : Style) (name : Bytes) (pen : Pen) : Pen :=
  if style.json then
    { pen with
      text := pen.text ++ pen.gap ++ Json.string recordEscapes name ++ utf8 ":\x7b"
      gap := [] }
  else { pen with path := pen.path ++ name ++ [0x2E] }

def closeGroup (style : Style) (name : Bytes) (pen : Pen) : Pen :=
  if style.json then
    { pen with text := pen.text ++ utf8 "\x7d", gap := separator style }
  else
    { pen with
      path := pen.path.take (pen.path.length - (name.length + 1))
      gap := separator style }

mutual

/-- Writes an attribute. A group in which nothing is written leaves no text behind, though the
pen has moved; a group without members counts as written. -/
def attr (style : Style) (key : Bytes) (s : Shown) (pen : Pen) : Pen × Bool :=
  match s with
  | .leaf l => leaf style key l pen
  | .group members =>
      if members.isEmpty then (pen, true)
      else
        let opened := if key.isEmpty then pen else openGroup style key pen
        match attrs style members opened with
        | (inner, false) => ({ inner with text := pen.text }, false)
        | (inner, true) =>
            (if key.isEmpty then inner else closeGroup style key inner, true)

def attrs (style : Style) (members : List (Bytes × Shown)) (pen : Pen) : Pen × Bool :=
  match members with
  | [] => (pen, false)
  | (key, s) :: rest =>
      let (pen, first) := attr style key s pen
      let (pen, others) := attrs style rest pen
      (pen, first || others)

end

end Plain

/-- A writer of plain records: the text of the attributes that every record carries, the groups
opened so far, how many of them that text has opened, and the path they give. -/
structure Plain where
  style : Plain.Style
  held : Bytes := []
  groups : List Bytes := []
  opened : Nat := 0
  path : Bytes := []

namespace Plain

def gapAfter (style : Style) (held : Bytes) : Bytes :=
  if style.json && held.getLast? = some 0x7B then [] else separator style

def openGroups (h : Plain) (pen : Pen) : Pen :=
  (h.groups.drop h.opened).foldl (fun pen name => openGroup h.style name pen) pen

def withAttrs (h : Plain) (more : List Attr) : Plain :=
  let members := more.map fun (key, f) => (key, f.shown)
  if (Field.allShown more).isEmpty then h
  else
    let gap := if h.held.isEmpty then [] else gapAfter h.style h.held
    let start := h.openGroups { text := h.held, gap, path := h.path }
    match attrs h.style members start with
    | (_, false) => h
    | (pen, true) => { h with held := pen.text, path := pen.path, opened := h.groups.length }

def withGroup (h : Plain) (name : Bytes) : Plain := { h with groups := h.groups ++ [name] }

def record (h : Plain) (time : Option Bytes) (level : Level) (message : Bytes)
    (more : List Attr) : Bytes :=
  let builtIn : List (Bytes × Shown) :=
    (time.map fun text => (utf8 "time", Shown.text text)).toList ++
      [(utf8 "level", .text level.label), (utf8 "msg", .text message)]
  let (head, _) :=
    attrs h.style builtIn { text := if h.style.json then utf8 "\x7b" else [] }
  let held : Pen :=
    if h.held.isEmpty then head
    else { head with text := head.text ++ head.gap ++ h.held, gap := gapAfter h.style h.held }
  let members := Field.allShown more
  let (text, opened) :=
    if members.isEmpty then (held.text, h.opened)
    else
      match attrs h.style members (h.openGroups { held with path := h.path }) with
      | (pen, true) => (pen.text, h.groups.length)
      | (_, false) => (held.text, h.opened)
  text ++ (if h.style.json then Bytes.repeated opened (utf8 "\x7d") ++ utf8 "\x7d" else []) ++
    [Bytes.lineFeed]

end Plain

end Scribe
