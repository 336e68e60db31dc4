import Scribe.CommandLine.LogFlags
import Scribe.CommandLine.Usage
import Scribe.Decimal.Integer
import Scribe.Files.Path

/-!
# Flag values

Reading the value of a flag, from a text or from a configuration, and keeping the values that
have been given.
-/

namespace Scribe

/-- What relative paths are relative to. -/
structure Whereabouts where
  workingDirectory : Bytes
  home : Bytes

/-- A text with a replacement character for each malformed byte. -/
def Bytes.repaired (text : Bytes) : Bytes := Bytes.ofChars text.chars

namespace Flag

/-- A switch as written, without regard to case. -/
def readSwitch? (text : Bytes) : Option Bool :=
  if ["true", "1", "yes"].any (utf8 · = text) then some true
  else if ["false", "0", "no"].any (utf8 · = text) then some false
  else none

/-- The pieces of a text between commas. A comma behind a backslash belongs to its piece; nothing
is behind a final comma. `piece` holds the current piece, last byte first. -/
def splitListFrom (piece : Bytes) : Bytes → List Bytes
  | [] => if piece.isEmpty then [] else [piece.reverse]
  | 0x5C :: b :: rest =>
      if b = 0x2C then splitListFrom (b :: piece) rest else splitListFrom (b :: 0x5C :: piece) rest
  | b :: rest =>
      if b = 0x2C then piece.reverse :: splitListFrom [] rest else splitListFrom (b :: piece) rest

def splitList (text : Bytes) : List Bytes := splitListFrom [] text

/-- A path as given; a hyphen is none. -/
def expandPath (w : Whereabouts) (path : Bytes) : Bytes :=
  if path = utf8 "-" then path else Path.expand w.workingDirectory w.home path

def readText (w : Whereabouts) (f : Flag) (text : Bytes) : Except Usage FlagValue :=
  match f.form with
  | .switch _ =>
      let text := Bytes.lower text
      match readSwitch? text with
      | some on => .ok (.switch on)
      | none => .error (.badSwitch f.name text)
  | .integer =>
      match Decimal.readInteger? text with
      | some n => .ok (.integer n)
      | none => .error (.badInteger f.name text)
  | .text | .logLevel | .logFormat => .ok (.text (Bytes.repaired text))
  | .texts => .ok (.texts (splitList (Bytes.repaired text)))
  | .paths => .ok (.texts ((splitList (Bytes.repaired text)).map (expandPath w)))

/-- The texts of a list of documents; null stands for the empty text. -/
def textsOf : List Document → Except Document (List Bytes)
  | [] => .ok []
  | .text s :: ds => (textsOf ds).map (Bytes.repaired s :: ·)
  | .null :: ds => (textsOf ds).map ([] :: ·)
  | d :: _ => .error d

/-- The value that a configuration gives to a flag. Paths of a list stay as they are. -/
def readDocument (w : Whereabouts) (f : Flag) (d : Document) : Except Usage FlagValue :=
  match d with
  | .text s => f.readText w s
  | d =>
      match f.form with
      | .switch _ =>
          match d with
          | .boolean on => .ok (.switch on)
          | d => .error (.notSwitch f.name d)
      | .integer =>
          match d with
          | .number x => f.readText w (Layout.general.number x)
          | d => .error (.notInteger f.name d)
      | .text | .logLevel | .logFormat => .error (.notText f.name d)
      | .texts | .paths =>
          let items :=
            match d with
            | .list ds => ds
            | d => [d]
          match textsOf items with
          | .ok texts => .ok (.texts texts)
          | .error wrong => .error (.notTexts f.name items wrong)

/-- What giving a value to a flag does to the log at once. -/
def changes (f : Flag) (v : FlagValue) : List LogChange :=
  match f.form, v with
  | .logLevel, .text s => [.level s]
  | .logFormat, .text s => [.format s]
  | _, _ => []

end Flag

abbrev Given := List ((Command × String) × FlagValue)

namespace Given

def get? (g : Given) (owner : Command) (name : String) : Option FlagValue := g.lookup (owner, name)

/-- Gives a value to a flag. A list grows, every other value is replaced. -/
def add (g : Given) (owner : Command) (name : String) (v : FlagValue) : Given :=
  let joined :=
    match g.get? owner name, v with
    | some (.texts before), .texts more => .texts (before ++ more)
    | _, v => v
  ((owner, name), joined) :: g.filter (·.1 ≠ (owner, name))

/-- The value of a flag: the one given, or its default. -/
def value (g : Given) (owner : Command) (f : Flag) : FlagValue :=
  (g.get? owner f.name).getD f.default

def named (g : Given) (owner : Command) (name : String) : FlagValue :=
  match owner.flags.find? (·.name == name) with
  | some f => g.value owner f
  | none => .switch false

end Given

end Scribe
