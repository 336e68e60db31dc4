import Scribe.Machine.Evaluate

/-!
# Executing statements

A statement that has been called off does nothing. The first fault ends a statement; what it did
before stays done.
-/

namespace Scribe

def Stmt.event (s : Stmt) (line : Int) : LogEvent :=
  { level := .trace
    message := utf8 "execute statement"
    attrs := [(utf8 "type", .text (utf8 s.form)), (utf8 "line", .int line)] }

mutual

def execute (o : Options) (s : Stmt) : Action Unit :=
  if o.cancelled then throw .cancelled
  else
    match s with
    | .absent => Action.fault 0 .missingStatement
    | .print keyword e => Action.nested o.limit keyword.line do
        Action.note (s.event keyword.line)
        let v ← evaluate o e
        Action.print keyword.line v.display
    | .expression .absent => throw .lineless
    | .expression e => Action.nested o.limit e.line do
        Action.note (s.event e.line)
        let _ ← evaluate o e
        pure ()
    | .declare name .absent => Action.nested o.limit name.line do
        Action.note (s.event name.line)
        Action.define name.lexeme .null
    | .declare name init => Action.nested o.limit name.line do
        Action.note (s.event name.line)
        let v ← evaluate o init
        Action.define name.lexeme v
    | .block brace stmts => Action.nested o.limit brace.line do
        Action.note (s.event brace.line)
        if o.blockScope then Action.inOwnScope (executeAll o stmts) else executeAll o stmts
    | .branch keyword cond yes no => Action.nested o.limit keyword.line do
        Action.note (s.event keyword.line)
        let v ← evaluate o cond
        if v.truthy then execute o yes
        else if no.isAbsent then pure ()
        else execute o no

/-- Statements in order, up to the first that stops. -/
def executeAll (o : Options) : List Stmt → Action Unit
  | [] => pure ()
  | s :: ss => do
      execute o s
      executeAll o ss

end

end Scribe
