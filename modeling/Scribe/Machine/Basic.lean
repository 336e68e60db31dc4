import Scribe.Journal.Logger
import Scribe.Scope
import Scribe.Tree.Parse

/-!
# The state of a run

What statements act on: the scopes, the sink of printed text, the nesting depth, and the events
that a log may record.
-/

namespace Scribe

/-- A place that texts are written to. A write is taken whole or refused whole. -/
structure Sink where
  /-- Why the last of the texts offered is refused, if it is. They are given last first. -/
  refusal : List Bytes → Option Bytes
  /-- Texts offered so far, last first. -/
  offered : List Bytes := []
  /-- What was taken, last first. -/
  taken : List Bytes := []

namespace Sink

def unlimited : Sink := { refusal := fun _ => none }

def limited (count : Nat) (reason : Bytes) : Sink :=
  { refusal := fun offered => if offered.length ≤ count then none else some reason }

def write (s : Sink) (text : Bytes) : Except Bytes Unit × Sink :=
  let offered := text :: s.offered
  match s.refusal offered with
  | none => (.ok (), { s with offered, taken := text :: s.taken })
  | some reason => (.error reason, { s with offered })

def contents (s : Sink) : Bytes := s.taken.reverse.flatten

def drained (s : Sink) : Sink := { s with taken := [] }

end Sink

structure Options where
  /-- Whether a block has a scope of its own. -/
  blockScope : Bool := false
  /-- Whether the elements of an array literal are evaluated; otherwise it is always empty. -/
  arrayElements : Bool := false
  /-- Limit on nesting. -/
  limit : Nat := defaultLimit
  /-- Whether the run has been called off. -/
  cancelled : Bool := false

/-- The limit that a setting stands for: one that is not positive selects the default. -/
def limitOf (setting : Int) : Nat := if 0 < setting then setting.toNat else defaultLimit

structure Machine where
  scopes : Scopes
  out : Sink
  depth : Nat := 0
  /-- Events for the log, last first. -/
  events : List LogEvent := []

/-- Why a statement or an expression ends without a result. -/
inductive Stop where
  | fault (d : Diagnostic)
  | cancelled
  /-- A statement that has no line was asked for it. -/
  | lineless

/-- What acts on the machine. Effects before a stop stay. -/
abbrev Action (α : Type) := EStateM Stop Machine α

namespace Action

def fault (line : Int) (cause : RuntimeCause) : Action α := fun m =>
  .error (.fault (Diagnostic.runtime line cause)) m

/-- Runs a part one level deeper. The depth is given back however the part ends. -/
@[inline] def nested (limit : Nat) (line : Int) (part : Action α) : Action α := fun m =>
  if m.depth < limit then
    match part { m with depth := m.depth + 1 } with
    | .ok a m => .ok a { m with depth := m.depth - 1 }
    | .error stop m => .error stop { m with depth := m.depth - 1 }
  else fault line .nestingTooDeep m

/-- Runs a part in a scope of its own, which is left however the part ends. -/
@[inline] def inOwnScope (part : Action α) : Action α := fun m =>
  match part { m with scopes := m.scopes.enclose } with
  | .ok a m => .ok a { m with scopes := m.scopes.leave }
  | .error stop m => .error stop { m with scopes := m.scopes.leave }

def note (e : LogEvent) : Action Unit := fun m => .ok () { m with events := e :: m.events }

def get (name : Token) : Action Value := fun m =>
  match m.scopes.get? name.lexeme with
  | some v => .ok v m
  | none => fault name.line (.undefinedVariable name.lexeme) m

def define (name : Bytes) (v : Value) : Action Unit := fun m =>
  .ok () { m with scopes := m.scopes.define name v }

def assign (name : Bytes) (v : Value) : Action Unit := fun m =>
  .ok () { m with scopes := m.scopes.assign name v }

def print (line : Int) (text : Bytes) : Action Unit := fun m =>
  match m.out.write (text ++ [Bytes.lineFeed]) with
  | (.ok (), out) => .ok () { m with out }
  | (.error reason, out) => fault line (.outputFailed reason) { m with out }

end Action

end Scribe
