import Scribe.Interpreter
import Scribe.Value.Literal

/-!
# Sessions

The interpreter behind a prompt. A line that is a bare expression is evaluated for its value.
-/

namespace Scribe

structure Session where
  options : Options
  globals : List (Bytes × Value)
  interpreter : Interpreter

namespace Session

def start (options : Options) (globals : List (Bytes × Value)) : Session :=
  { options, globals, interpreter := .ofOptions options globals }

def reset (s : Session) : Session := start s.options s.globals

def bindings (s : Session) : Bindings := s.interpreter.bindings

structure Outcome where
  output : Bytes := []
  value : Option Value := none
  diagnostics : List Diagnostic := []
  events : List LogEvent := []

def run (s : Session) (source : Bytes) : Session × Outcome :=
  let done := s.interpreter.run source
  let out := done.interpreter.out
  ({ s with interpreter := { done.interpreter with out := out.drained } },
    { output := out.contents, diagnostics := done.diagnostics, events := done.events })

def evaluate (s : Session) (e : Expr) : Session × Outcome :=
  match s.interpreter.evaluate e with
  | (.ok v, interpreter, _) => ({ s with interpreter }, { value := some v })
  | (.error (.fault d), interpreter, _) => ({ s with interpreter }, { diagnostics := [d] })
  | (.error _, interpreter, _) => ({ s with interpreter }, {})

/-- A line with the final semicolon that it may lack. -/
def completed (line : Bytes) : Bytes :=
  let source := Bytes.trim line
  if Bytes.endsWith source (utf8 ";") || Bytes.endsWith source (utf8 "\x7d") then source
  else source ++ utf8 ";"

/-- The expression that a program consists of, if it is a single one and no assignment. -/
def bareExpression? (p : Program) : Option Expr :=
  match p.diagnostics, p.stmts with
  | [], [.expression e] =>
      match e with
      | .assign .. => none
      | e => some e
  | _, _ => none

/-- Runs a line, or evaluates it if it is a bare expression. -/
def enter (s : Session) (line : Bytes) : Session × Outcome :=
  let source := completed line
  match bareExpression? (Program.ofSource source defaultLimit) with
  | some e => s.evaluate e
  | none => s.run source

end Session

end Scribe
