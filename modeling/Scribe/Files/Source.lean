import Scribe.Files.Path
import Scribe.Files.System
import Scribe.Interpreter

/-!
# Scripts

Scripts are named on the command line. A name that is no file is looked for in the directories of
the include path; a single hyphen stands for standard input. Every file is read once, however
often and by whatever name it is mentioned, and standard input is read last.
-/

namespace Scribe

/-- The directories of the include path: those given, then those of a list with colons. What is
no directory is left out, and so is a repetition. -/
def includePath (isDirectory : Bytes → Bool) (given : List Bytes) (listed : Bytes) : List Bytes :=
  let mentioned := (given ++ [listed]).flatMap (Bytes.splitOn 0x3A)
  (mentioned.filter fun dir => !dir.isEmpty && isDirectory dir).eraseDups

structure Source where
  name : Bytes
  text : Bytes
  deriving DecidableEq

namespace Source

variable {κ : Type}

def standardInput : Bytes := utf8 "-"

def candidates (dirs : List Bytes) (name : Bytes) : List Bytes :=
  name :: if Path.isAbsolute name then [] else dirs.map (Path.join · name)

def locate? (fs : FileSystem κ) (dirs : List Bytes) (name : Bytes) : Option Bytes :=
  (candidates dirs name).find? fs.isFile

def notFound (dirs : List Bytes) (name : Bytes) : Failure :=
  Fault.scriptNotFound.failure.withAttrs [(utf8 "name", .text name), (utf8 "path", .texts dirs)]

def unreadable (path : Bytes) (cause : Failure) : Failure :=
  Fault.openSource.wrap cause [(utf8 "file", .text path)]

/-- Tells that a script was found in the include path. -/
def locatedEvent (name path : Bytes) : LogEvent :=
  { level := .debug
    message := utf8 "resolved script"
    attrs := [(utf8 "name", .text name), (utf8 "path", .text path)] }

structure Gathered (κ : Type) where
  /-- Keys of the files met. -/
  seen : List κ := []
  /-- Scripts, last first. -/
  sources : List Source := []
  /-- Events for the log, last first. -/
  events : List LogEvent := []

/-- A step of reading scripts. What was found before a failure stays. -/
abbrev Gathering (κ α : Type) := EStateM Failure (Gathered κ) α

/-- Reads the file at a path, unless it has been met. The path is resolved in any case. -/
def gatherFile [BEq κ] (fs : FileSystem κ) (path : Bytes) : Gathering κ Unit := fun g =>
  match fs.resolve path with
  | .error cause => .error (unreadable path cause) g
  | .ok key =>
      if g.seen.contains key then .ok () g
      else
        let g := { g with seen := key :: g.seen }
        match fs.read path with
        | .error cause => .error (unreadable path cause) g
        | .ok text => .ok () { g with sources := ⟨path, text⟩ :: g.sources }

def gather [BEq κ] (fs : FileSystem κ) (dirs : List Bytes) (name : Bytes) : Gathering κ Unit :=
  fun g =>
    match locate? fs dirs name with
    | none => .error (notFound dirs name) g
    | some path =>
        gatherFile fs path
          (if fs.isFile name then g else { g with events := locatedEvent name path :: g.events })

def gatherInput (input : Except Failure Bytes) : Gathering κ Unit := fun g =>
  match input with
  | .error cause => .error (unreadable standardInput cause) g
  | .ok text => .ok () { g with sources := ⟨standardInput, text⟩ :: g.sources }

/-- Reads scripts in order, then standard input if it is among them. -/
def gatherAll [BEq κ] (fs : FileSystem κ) (dirs : List Bytes) (names : List Bytes)
    (input : Except Failure Bytes) : Gathering κ Unit := do
  (names.filter (· ≠ standardInput)).forM (gather fs dirs)
  if names.contains standardInput then
    gatherInput input

def read [BEq κ] (fs : FileSystem κ) (dirs : List Bytes) (names : List Bytes)
    (input : Except Failure Bytes) : Except Failure (List Source) × List LogEvent :=
  match gatherAll fs dirs names input {} with
  | .ok () g => (.ok g.sources.reverse, g.events.reverse)
  | .error e g => (.error e, g.events.reverse)

end Source

end Scribe
