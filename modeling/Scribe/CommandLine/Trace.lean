import Scribe.CommandLine.Given

/-!
# Reading arguments

Arguments are read from left to right. They select a command, give values to flags, and are
operands of the command. Behind two hyphens nothing is a flag.
-/

namespace Scribe

structure Argument where
  text : Bytes
  /-- Whether it cannot be a flag. -/
  plain : Bool := false
  deriving DecidableEq

namespace Argument

/-- Whether an argument can be a value: it is no flag, but a hyphen alone is a value. -/
def isValue (a : Argument) : Bool :=
  a.plain || a.text = utf8 "-" || !Bytes.startsWith a.text (utf8 "-")

def obstacle (a : Argument) : Obstacle :=
  if Bytes.startsWith a.text (utf8 "--") then .longFlag a.text else .shortFlag a.text

end Argument

/-- What was asked for instead of a command. -/
inductive Inquiry where
  | help
  | version
  deriving DecidableEq, Repr

structure Trace where
  given : Given := []
  /-- Switches that were turned off by their negative form, from then on. -/
  negated : List (Command × String) := []
  /-- The commands selected, last first. -/
  commands : List Command := [.root]
  operands : List Bytes := []
  /-- Inquiries, last first. -/
  inquiries : List Inquiry := []
  log : LogSettings

/-- A step of reading. What was read before an error stays, because it has changed the log. -/
abbrev Tracing (α : Type) := EStateM Usage Trace α

namespace Trace

def refuse (u : Usage) : Tracing α := fun t => .error u t

def kindOf : FlagForm → String
  | .integer => "int"
  | .logLevel | .logFormat => "value"
  | .paths => "file"
  | _ => "string"

def inquiryOf (owner : Command) (f : Flag) : List Inquiry :=
  if owner = .root && f.name = "version" then [.version]
  else if owner = .root && f.name = "help" then [.help]
  else []

def give (owner : Command) (f : Flag) (v : FlagValue) : Tracing Unit := fun t =>
  .ok ()
    { t with
      given := t.given.add owner f.name v
      inquiries := inquiryOf owner f ++ t.inquiries
      log := (f.changes v).foldl LogSettings.apply t.log }

def readArgument (w : Whereabouts) (f : Flag) (a : Argument) : Except Usage FlagValue :=
  if a.plain then f.readText w a.text
  else
    let pieces :=
      match f.form with
      | .texts | .paths => Flag.splitList (Bytes.repaired a.text)
      | _ => [a.text]
    match pieces.find? fun piece => !(Argument.mk piece false).isValue with
    | some piece => .error (.missingValue f.name (kindOf f.form) (Argument.mk piece false).obstacle)
    | none => f.readText w a.text

def takeValue (w : Whereabouts) (owner : Command) (f : Flag) (arguments : List Argument) :
    Tracing (List Argument) := do
  match arguments with
  | [] =>
      match f.form with
      | .texts | .paths => refuse (.missingList f.name)
      | form => refuse (.missingValue f.name (kindOf form) .finish)
  | a :: rest =>
      match readArgument w f a with
      | .error u => refuse u
      | .ok v =>
          give owner f v
          pure rest

/-- Turns a switch on or off. `asNegative` tells that its negative form was used. -/
def turn (owner : Command) (f : Flag) (on asNegative : Bool) : Tracing Unit := do
  if asNegative then
    modify fun t => { t with negated := (owner, f.name) :: t.negated }
  let t ← get
  give owner f (.switch (on != t.negated.contains (owner, f.name)))

def isSwitch (f : Flag) : Bool :=
  match f.form with
  | .switch _ => true
  | _ => false

def takeFlag (w : Whereabouts) (owner : Command) (f : Flag) (asNegative : Bool)
    (attached : Option Bytes) (arguments : List Argument) : Tracing (List Argument) :=
  if isSwitch f then
    match attached with
    | none => do
        turn owner f true asNegative
        pure arguments
    | some text =>
        match f.readText w text with
        | .ok v => do
            turn owner f v.isOn asNegative
            pure arguments
        | .error u => refuse u
  else
    match attached with
    | some text => takeValue w owner f (⟨text, true⟩ :: arguments)
    | none => takeValue w owner f arguments

def spellings (flags : List (Command × Flag)) : List Bytes :=
  flags.flatMap fun (_, f) => f.long :: f.shortForm?.toList

def unknown (flags : List (Command × Flag)) (text : Bytes) : Usage :=
  .unknownFlag text ((spellings flags).filter (isSimilar text))

/-- The first flag with a given spelling, and whether that is its negative form. -/
def findFlag? (flags : List (Command × Flag)) (text : Bytes) : Option (Command × Flag × Bool) :=
  flags.findSome? fun (owner, f) =>
    if f.long = text || f.shortForm? = some text then some (owner, f, false)
    else if f.negative? = some text then some (owner, f, true)
    else none

/-- A flag of several letters; a value may be attached behind an equals sign. -/
def longFlag (w : Whereabouts) (flags : List (Command × Flag)) (text : Bytes)
    (arguments : List Argument) : Tracing (List Argument) :=
  let (name, attached) :=
    match Bytes.cut? 0x3D text with
    | some (name, value) => (name, some value)
    | none => (text, none)
  match findFlag? flags name with
  | some (owner, f, asNegative) => takeFlag w owner f asNegative attached arguments
  | none => refuse (unknown flags name)

/-- Flags of one letter each; what follows the letter of a flag with a value is that value. -/
def shortFlags (w : Whereabouts) (flags : List (Command × Flag)) :
    (letters : Bytes) → List Argument → Tracing (List Argument)
  | [], arguments => pure arguments
  | letter :: tail, arguments =>
      let text := [0x2D, letter]
      match findFlag? flags text with
      | none => refuse (unknown flags text)
      | some (owner, f, _) =>
          if isSwitch f then do
            turn owner f true false
            shortFlags w flags tail arguments
          else
            takeFlag w owner f false (if tail.isEmpty then none else some tail) arguments

def child? (c : Command) (word : Bytes) : Option Command :=
  c.children.find? fun child => utf8 child.name = word

/-- Selects the default command where no word is left. Help is asked of the command itself. -/
def selectDefault (c : Command) : Tracing Unit :=
  modify fun t =>
    match c.default? with
    | some d => if t.inquiries.contains .help then t else { t with commands := d :: t.commands }
    | none => t

/-- Reads arguments behind a command. `filled` tells that its operands have been read. Each step
reads an argument or goes on to a command further down, so twice as many steps as there are
arguments, and two more, suffice. -/
def readFrom (w : Whereabouts) : (fuel : Nat) → Command → (filled : Bool) → List Argument →
    Tracing Unit
  | 0, _, _, _ => pure ()
  | _ + 1, c, _, [] => selectDefault c
  | fuel + 1, c, filled, a :: rest =>
      if !a.isValue then
        if a.text = utf8 "--" then
          readFrom w fuel c filled (rest.map fun b => { b with plain := true })
        else if Bytes.startsWith a.text (utf8 "--") then do
          let rest ← longFlag w c.allowedFlags a.text rest
          readFrom w fuel c filled rest
        else do
          let rest ← shortFlags w c.allowedFlags (a.text.drop 1) rest
          readFrom w fuel c filled rest
      else
        match (if filled then .none else c.operands) with
        | .one => do
            modify fun t => { t with operands := [Bytes.repaired a.text] }
            readFrom w fuel c true rest
        | .many => do
            let operands := (a :: rest).takeWhile Argument.isValue
            modify fun t => { t with operands := operands.map (Bytes.repaired ·.text) }
            readFrom w fuel c true ((a :: rest).dropWhile Argument.isValue)
        | .none =>
            match child? c a.text with
            | some child => do
                modify fun t => { t with commands := child :: t.commands }
                readFrom w fuel child false rest
            | none =>
                match c.default? with
                | some d => do
                    modify fun t => { t with commands := d :: t.commands }
                    readFrom w fuel d false (a :: rest)
                | none => refuse (.unexpectedArgument a.text)

def read (w : Whereabouts) (arguments : List Bytes) : Tracing Unit :=
  readFrom w (2 * arguments.length + 3) .root false (arguments.map fun text => { text })

def command (t : Trace) : Command := t.commands.headD .root

end Trace

end Scribe
