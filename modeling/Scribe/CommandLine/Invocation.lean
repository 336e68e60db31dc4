import Scribe.CommandLine.Trace
import Scribe.Configuration

/-!
# Invocations

What a command line asks for, once flags that it does not give have taken their values from the
configuration, and every value has been found to be allowed.
-/

namespace Scribe

namespace Configuration

/-- A flag name without hyphens: each letter behind one is a capital. -/
def joinedName (flag : Bytes) : Bytes :=
  match Bytes.splitOn 0x2D flag with
  | [] => []
  | first :: rest => first ++ rest.flatMap fun part => Bytes.upper (part.take 1) ++ part.drop 1

/-- What the fields of a settings file give to a flag. Null gives nothing. -/
def fromFields? (fields : List (Bytes × Document)) (flag : Bytes) : Option Document :=
  let found :=
    match fields.lookup (scriptName flag) with
    | some d => some d
    | none => fields.lookup (joinedName flag)
  match found with
  | some .null => none
  | other => other

/-- Where flags take values from, the first source first. The last one that has a value counts. -/
abbrev Resolver := List (Bytes → Option Document)

def resolve? (r : Resolver) (flag : Bytes) : Option Document :=
  r.foldl (fun found source => (source flag).orElse fun _ => found) none

end Configuration

namespace Trace

/-- Settings of the log after all flags have been set to their defaults. -/
def resetLog (s : LogSettings) : LogSettings :=
  Command.logFlags.foldl (fun s f => (f.changes f.default).foldl LogSettings.apply s) s

def openFlags (t : Trace) : List (Command × Flag) :=
  t.commands.reverse.flatMap fun c => c.flags.map (c, ·)

/-- Gives a flag the value that it has in the configuration, unless it has been given one. -/
def resolveFlag (w : Whereabouts) (r : Configuration.Resolver) (owner : Command) (f : Flag) :
    Tracing Unit := do
  let t ← get
  match t.given.get? owner f.name, Configuration.resolve? r (utf8 f.name) with
  | none, some d =>
      match f.readDocument w d with
      | .ok v =>
          modify fun t =>
            { t with
              given := t.given.add owner f.name v
              log := (f.changes v).foldl LogSettings.apply t.log }
      | .error u => refuse u
  | _, _ => pure ()

def resolveAll (w : Whereabouts) (r : Configuration.Resolver) : Tracing Unit := do
  modify fun t => { t with log := resetLog t.log }
  let t ← get
  t.openFlags.forM fun (owner, f) => resolveFlag w r owner f

def validateFlag (owner : Command) (f : Flag) : Tracing Unit := do
  let t ← get
  let text := (t.given.value owner f).toText
  if f.choices.isEmpty || f.choices.any (utf8 · = text) then pure ()
  else refuse (.notAllowed f.name f.choices text)

def validate : Tracing Unit :=
  Command.all.forM fun c => c.flags.forM (validateFlag c)

end Trace

structure RunOrder where
  settings : List Bytes
  blockScope : Bool
  arrayElements : Bool
  scripts : List Bytes
  /-- Format of the bindings to be written at the end; empty if none are. -/
  dump : Bytes := []
  indent : Int := 0

namespace RunOrder

def options (o : RunOrder) : Options :=
  { blockScope := o.blockScope, arrayElements := o.arrayElements }

end RunOrder

structure FormatOrder where
  format : Bytes
  indent : Int
  script : Bytes

inductive Order where
  | run (o : RunOrder)
  | prompt (o : RunOrder)
  | tree (o : FormatOrder)
  | tokens (o : FormatOrder)
  | init (force : Bool)

structure Invocation where
  log : LogFlags
  time : Bytes
  path : List Bytes
  order : Order

namespace Invocation

def runOrder (t : Trace) (c : Command) (scripts : List Bytes) : RunOrder :=
  { settings := (t.given.named c "set").toTexts
    blockScope := (t.given.named c "block-scope").isOn
    arrayElements := (t.given.named c "array-elements").isOn
    scripts }

def formatOrder (t : Trace) (c : Command) : FormatOrder :=
  { format := (t.given.named c "format").toText
    indent := (t.given.named c "indent").toInt
    script := t.operands.headD (utf8 "-") }

def orderOf (t : Trace) : Order :=
  match t.command with
  | .repl => .prompt (runOrder t .repl t.operands)
  | .tree => .tree (formatOrder t .tree)
  | .format => .tree (formatOrder t .tree)
  | .tokens => .tokens (formatOrder t .tokens)
  | .init => .init (t.given.named .init "force").isOn
  | .root | .run =>
      .run
        { runOrder t .run (if t.operands.isEmpty then [utf8 "-"] else t.operands) with
          dump := (t.given.named .run "dump").toText
          indent := (t.given.named .run "indent").toInt }

def ofTrace (t : Trace) : Invocation :=
  { log :=
      { level := (t.given.named .root "log-level").toText
        format := (t.given.named .root "log-format").toText
        caller := (t.given.named .root "log-caller").isOn
        pretty := (t.given.named .root "log-pretty").isOn }
    time := (t.given.named .root "log-time").toText
    path := (t.given.named .root "path").toTexts
    order := orderOf t }

def logSettings (i : Invocation) (s : LogSettings) : LogSettings :=
  { s with
    level := .read i.log.level
    format := .read i.log.format
    timeLayout := i.time
    caller := i.log.caller
    pretty := i.log.pretty }

def scripts (i : Invocation) : List Bytes :=
  match i.order with
  | .run o | .prompt o => o.scripts
  | .tree o | .tokens o => [o.script]
  | .init _ => []

def flags (i : Invocation) : List Configuration.FlagState :=
  [{ name := utf8 "help", value := .boolean false },
    { name := utf8 "log-level", value := .text i.log.level },
    { name := utf8 "log-format", value := .text i.log.format },
    { name := utf8 "log-time", value := .text i.time },
    { name := utf8 "log-caller", value := .boolean i.log.caller },
    { name := utf8 "log-pretty", value := .boolean i.log.pretty },
    { name := utf8 "path", value := .list (i.path.map .text) },
    { name := utf8 "version", value := .boolean false }]

end Invocation

end Scribe
