import Scribe.Files.Source
import Scribe.Prompt.Session

/-!
# Consoles

What a command works on: its streams, the log, the programs kept from earlier runs, and the
configuration script. The log has one logger at a time.
-/

namespace Scribe

structure Console (κ : Type) where
  logger : Logger
  /-- The time that records bear. -/
  now : Option Instant := none
  /-- Records of the log, last first. -/
  records : List Bytes := []
  out : Sink := .unlimited
  errs : Sink := .unlimited
  /-- What goes to standard output beside the output of a command. -/
  notes : Bytes := []
  cache : Cache κ := []
  /-- The configuration script, if there is one. -/
  script : Option Bytes := none

/-- What a command does to the console. What was done before a failure stays done. -/
abbrev Job (κ α : Type) := EStateM Failure (Console κ) α

namespace Console

variable {κ : Type}

def log (c : Console κ) : Bytes := c.records.reverse.flatten

def record (c : Console κ) (events : List LogEvent) : Console κ :=
  { c with
    records := events.foldl (fun records e => c.logger.write e c.now :: records) c.records }

def configure (c : Console κ) (change : LogSettings → LogSettings) : Console κ :=
  { c with logger := c.logger.configure change }

end Console

namespace Job

variable {κ : Type}

def fail (e : Failure) : Job κ α := fun c => .error e c

def ofExcept : Except Failure α → Job κ α
  | .ok a => pure a
  | .error e => fail e

def record (events : List LogEvent) : Job κ Unit := modify (·.record events)

def write (f : Sink → Except Failure Unit × Sink) : Job κ Unit := fun c =>
  match f c.out with
  | (.ok (), out) => .ok () { c with out }
  | (.error e, out) => .error e { c with out }

def runScript [BEq κ] (h : Hashing κ) (i : Interpreter) (source : Bytes) :
    Job κ (Interpreter × List Diagnostic) := fun c =>
  let (done, cache) :=
    Interpreter.runCached h c.cache { i with out := c.out, errs := c.errs } source
  let c := { c with cache, out := done.interpreter.out, errs := done.interpreter.errs }
  .ok (done.interpreter, done.diagnostics) (c.record done.events)

end Job

end Scribe
