import Scribe.Machine.Execute
import Scribe.Program.Cache

/-!
# Interpreters

An interpreter keeps its bindings from one script to the next. Every statement that parsed is
executed, also when other declarations did not parse; a fault ends only the statement it occurs
in. Diagnostics come in order: lexical, syntax, runtime.
-/

namespace Scribe

structure Interpreter where
  options : Options
  scopes : Scopes
  out : Sink := .unlimited
  errs : Sink := .unlimited
  /-- The nesting depth between scripts. -/
  depth : Nat := 0

namespace Interpreter

def ofOptions (options : Options) (globals : List (Bytes × Value) := []) : Interpreter :=
  { options, scopes := .ofTop (.ofList globals) }

def bindings (i : Interpreter) : Bindings := i.scopes.top

def machine (i : Interpreter) : Machine :=
  { scopes := i.scopes, out := i.out, depth := i.depth }

def after (i : Interpreter) (m : Machine) : Interpreter × List LogEvent :=
  ({ i with scopes := m.scopes, out := m.out, depth := m.depth }, m.events.reverse)

def cancelEvent (line : Int) : LogEvent :=
  { level := .debug
    message := utf8 "execution canceled"
    attrs :=
      [(utf8 "line", .int line),
        (utf8 "cause", .failure (.plain (utf8 "context canceled")))] }

def faultEvent (d : Diagnostic) : LogEvent :=
  { level := .trace
    message := utf8 "runtime error"
    attrs := [(utf8 "diagnostic", .failure (.diagnostic d))] }

def unwrittenEvent (d : Diagnostic) (reason : Bytes) : LogEvent :=
  { level := .warn
    message := utf8 "cannot write diagnostic"
    attrs := [(utf8 "diagnostic", .failure (.diagnostic d)), (utf8 "error", .text reason)] }

/-- What a list of statements leaves behind: the machine, and the faults, last first. -/
structure Progress where
  machine : Machine
  faults : List Diagnostic

def Progress.note (p : Progress) (e : LogEvent) : Progress :=
  { p with machine := { p.machine with events := e :: p.machine.events } }

/-- Executes statements in order. A fault is kept and the next statement follows; a run that has
been called off ends there. -/
def executeEach (o : Options) : List Stmt → Progress → Progress
  | [], p => p
  | s :: ss, p =>
      match execute o s p.machine with
      | .ok _ m => executeEach o ss { p with machine := m }
      | .error (.fault d) m =>
          executeEach o ss (Progress.note ⟨m, d :: p.faults⟩ (faultEvent d))
      | .error .cancelled m => Progress.note ⟨m, p.faults⟩ (cancelEvent (s.line?.getD 0))
      | .error .lineless m => ⟨m, p.faults⟩

/-- Writes diagnostics, one per line, up to the first that is refused. -/
def writeDiagnostics : List Diagnostic → Sink → Sink × List LogEvent
  | [], errs => (errs, [])
  | d :: ds, errs =>
      match errs.write (d.text ++ [Bytes.lineFeed]) with
      | (.ok (), errs) => writeDiagnostics ds errs
      | (.error reason, errs) => (errs, [unwrittenEvent d reason])

structure Outcome where
  interpreter : Interpreter
  diagnostics : List Diagnostic
  events : List LogEvent

def runProgram (i : Interpreter) (p : Program) : Outcome :=
  let done := executeEach i.options p.stmts ⟨i.machine, []⟩
  let diagnostics := p.diagnostics ++ done.faults.reverse
  let (i, events) := i.after done.machine
  let (errs, more) := writeDiagnostics diagnostics i.errs
  { interpreter := { i with errs }, diagnostics, events := events ++ more }

def run (i : Interpreter) (source : Bytes) : Outcome :=
  let p := Program.ofSource source i.options.limit
  let done := i.runProgram p
  { done with events := p.events ++ done.events }

/-- Runs a script; its program may come from a cache. -/
def runCached {κ : Type} [BEq κ] (h : Hashing κ) (cache : Cache κ) (i : Interpreter)
    (source : Bytes) : Outcome × Cache κ :=
  let found := Cache.compile h cache source i.options.limit
  let done := i.runProgram found.program
  ({ done with events := found.events ++ done.events }, found.cache)

def execute (i : Interpreter) (s : Stmt) : Except Stop Unit × Interpreter × List LogEvent :=
  match Scribe.execute i.options s i.machine with
  | .ok _ m => (.ok (), i.after m)
  | .error stop m => (.error stop, i.after m)

def evaluate (i : Interpreter) (e : Expr) : Except Stop Value × Interpreter × List LogEvent :=
  match Scribe.evaluate i.options e i.machine with
  | .ok v m => (.ok v, i.after m)
  | .error stop m => (.error stop, i.after m)

end Interpreter

/-- The text that a reader gives: it may break off with a reason, and the reading may have been
called off. A reader's own reason counts first. -/
def readSource (text : Bytes) (broken : Option Bytes) (cancelled : Bool) : Except Failure Bytes :=
  match broken with
  | some reason => .error (Fault.readInput.wrap (.plain reason))
  | none =>
      if cancelled then .error (Fault.readInput.wrap (.plain (utf8 "context canceled")))
      else .ok text

end Scribe
