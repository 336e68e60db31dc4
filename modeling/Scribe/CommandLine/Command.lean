import Scribe.Journal.Clock
import Scribe.Journal.Level

/-!
# Commands and flags

What the command line may hold. Commands form a tree; a command without a further word stands for
its default command, which also gets the words that name no other.
-/

namespace Scribe

inductive Command where
  | root
  | run
  | repl
  | format
  | tree
  | tokens
  | init
  deriving DecidableEq, Repr

inductive FlagForm where
  | switch (negatable : Bool)
  | integer
  | text
  | logLevel
  | logFormat
  | texts
  | paths
  deriving DecidableEq, Repr

inductive FlagValue where
  | switch (on : Bool)
  | integer (n : Int)
  | text (s : Bytes)
  | texts (items : List Bytes)
  deriving DecidableEq

namespace FlagValue

def isOn : FlagValue → Bool
  | .switch on => on
  | _ => false

def toInt : FlagValue → Int
  | .integer n => n
  | _ => 0

def toText : FlagValue → Bytes
  | .text s => s
  | _ => []

def toTexts : FlagValue → List Bytes
  | .texts items => items
  | _ => []

end FlagValue

structure Flag where
  name : String
  short : Option Char := none
  form : FlagForm
  /-- The texts allowed, if not all are. -/
  choices : List String := []
  default : FlagValue

namespace Flag

def long (f : Flag) : Bytes := utf8 "--" ++ utf8 f.name

def shortForm? (f : Flag) : Option Bytes := f.short.map fun c => utf8 "-" ++ utf8Char c

/-- The form that turns a switch off. -/
def negative? (f : Flag) : Option Bytes :=
  if f.form = .switch true then some (utf8 "--no-" ++ utf8 f.name) else none

/-- A switch that is off unless given. -/
def ofSwitch (name : String) (negatable : Bool := false) (short : Option Char := none) : Flag :=
  { name, short, form := .switch negatable, default := .switch false }

end Flag

namespace Command

def name : Command → String
  | .root => "wz"
  | .run => "run"
  | .repl => "repl"
  | .format => "fmt"
  | .tree => "ast"
  | .tokens => "tokens"
  | .init => "init"

def children : Command → List Command
  | .root => [.run, .repl, .format, .init]
  | .format => [.tree, .tokens]
  | _ => []

def default? : Command → Option Command
  | .root => some .run
  | .format => some .tree
  | _ => none

/-- How many words a command takes that are no flags. -/
inductive Operands where
  | none
  | one
  | many
  deriving DecidableEq, Repr

def operands : Command → Operands
  | .run | .repl => .many
  | .tree | .tokens => .one
  | _ => .none

def logFlags : List Flag :=
  [{ name := "log-level", form := .logLevel, choices := Level.defined.map Prod.snd
     default := .text Level.default.name },
    { name := "log-format", form := .logFormat, choices := ["text", "json"]
      default := .text RecordFormat.default.name },
    { name := "log-time", form := .text, default := .text (utf8 "rfc3339") },
    .ofSwitch "log-caller" true,
    { Flag.ofSwitch "log-pretty" true with default := .switch true }]

def settings : Flag :=
  { name := "set", short := some 'D', form := .texts, default := .texts [] }

def indent (short : Option Char) : Flag :=
  { name := "indent", short, form := .integer, default := .integer 2 }

def formatFlags : List Flag :=
  [{ name := "format", short := some 'o', form := .text, choices := ["native", "json", "yaml"]
     default := .text (utf8 "native") },
    indent (some 'i')]

def flags : Command → List Flag
  | .root =>
      [.ofSwitch "help" false (some 'h')] ++ logFlags ++
        [{ name := "path", short := some 'I', form := .paths, default := .texts [] },
          .ofSwitch "version" false (some 'V')]
  | .run =>
      [settings,
        { name := "dump", form := .text, choices := ["", "json", "yaml"], default := .text [] },
        indent none, .ofSwitch "block-scope" true, .ofSwitch "array-elements" true]
  | .repl => [settings, .ofSwitch "block-scope" true, .ofSwitch "array-elements" true]
  | .tree | .tokens => formatFlags
  | .init => [.ofSwitch "force" false (some 'f')]
  | .format => []

/-- All commands, each before its children. -/
def all : List Command := [.root, .run, .repl, .format, .tree, .tokens, .init]

/-- The flags allowed behind a command: its own and those of the commands above it. What names
no command goes to the default command, so its flags are allowed as well. -/
def allowedFlags (c : Command) : List (Command × Flag) :=
  let chain : List Command :=
    match c with
    | .root | .run => [.root, .run]
    | .format | .tree => [.root, .format, .tree]
    | .tokens => [.root, .format, .tokens]
    | c => [.root, c]
  chain.flatMap fun owner => owner.flags.map (owner, ·)

end Command

end Scribe
