import Scribe.CommandLine.Perform
import Scribe.Document.ReadJson

/-!
# The command line

From arguments to what is done about them: log flags take effect first, then the configuration is
loaded, then the arguments are read, and then the command is performed.
-/

namespace Scribe

inductive Ending where
  | done
  | prompt (s : Session)
  | inquiry (i : Inquiry)
  | refused (u : Usage)
  | failed (e : Failure)

namespace CommandLine

variable {κ φ : Type} [BEq κ] [BEq φ]

def settingsPath (s : Surroundings κ φ) : Bytes := s.scriptPath ++ utf8 ".json"

def loadSettings (s : Surroundings κ φ) : Except Failure (List (Bytes × Document)) :=
  match s.settingsFile with
  | none => .ok []
  | some text =>
      match Document.readJsonRecord text with
      | .ok fields => .ok fields
      | .error e => .error (.context (settingsPath s) (.plain e.message))

/-- Runs the configuration script. Its output is dropped. -/
def loadScript (s : Surroundings κ φ) (c : Console κ) : Configuration × Console κ :=
  match c.script with
  | none => ([], c)
  | some source =>
      let (done, cache) :=
        Interpreter.runCached s.hashing c.cache Configuration.interpreter source
      let c := { c with cache }.record done.events
      (Configuration.ofOutcome done,
        if done.diagnostics.isEmpty then c
        else c.record [Configuration.ignoredEvent done.diagnostics])

/-- Settles the flags once the arguments have been read, unless there is an inquiry. -/
def settle (w : Whereabouts) (r : Configuration.Resolver) (arguments : List Bytes) :
    Tracing (Except Inquiry Invocation) := do
  Trace.read w arguments
  match (← get).inquiries.getLast? with
  | some i => pure (.error i)
  | none =>
      Trace.resolveAll w r
      Trace.validate
      return .ok (.ofTrace (← get))

def reply (c : Console κ) : Inquiry → Console κ
  | .version => { c with notes := c.notes ++ About.versionLine }
  | .help => { c with notes := c.notes ++ utf8 About.description ++ [Bytes.lineFeed] }

def run (s : Surroundings κ φ) (arguments : List Bytes) (c : Console κ) : Ending × Console κ :=
  let c := c.configure (·.scan arguments)
  match loadSettings s with
  | .error e => (.failed e, c)
  | .ok fields =>
      let (script, c) := loadScript s c
      let resolver : Configuration.Resolver := [Configuration.fromFields? fields, script.get?]
      match settle s.whereabouts resolver arguments { log := c.logger.settings } with
      | .error u t => (.refused u, c.configure fun _ => t.log)
      | .ok (.error i) t => (.inquiry i, reply (c.configure fun _ => t.log) i)
      | .ok (.ok i) t =>
          match Perform.invocation s i (c.configure fun _ => t.log) with
          | .error e c => (.failed e, c)
          | .ok .done c => (.done, c)
          | .ok (.prompt session) c => (.prompt session, c)

/-- What the arguments ask for, if they are in order and ask for a command. Nothing is done about
it. -/
def plan? (s : Surroundings κ φ) (arguments : List Bytes) (c : Console κ) : Option Invocation :=
  match loadSettings s with
  | .error _ => none
  | .ok fields =>
      let (script, c) := loadScript s c
      match settle s.whereabouts [Configuration.fromFields? fields, script.get?] arguments
          { log := c.logger.settings } with
      | .ok (.ok i) _ => some i
      | _ => none

def failureEvent (e : Failure) : LogEvent :=
  { level := .error
    message := utf8 "run failed"
    attrs := [(utf8 "error", .failure (.plain e.text))] }

end CommandLine

end Scribe
