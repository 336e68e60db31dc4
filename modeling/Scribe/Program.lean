import Scribe.Journal.Logger
import Scribe.Token.Scan
import Scribe.Tree.Parse

/-!
# Programs

A program is a text together with everything that can be said of it without running it: its
tokens, its statements, and the diagnostics of both.
-/

namespace Scribe

structure Program where
  source : Bytes
  limit : Nat
  tokens : List Token
  stmts : List Stmt
  faults : List Diagnostic
  reports : List Diagnostic

namespace Program

/-- The diagnostics in order: lexical ones, then those of syntax. -/
def diagnostics (p : Program) : List Diagnostic := p.faults ++ p.reports

def ofSource (source : Bytes) (limit : Nat) : Program :=
  let scanned := scan source
  let parsed := parse scanned.tokens limit
  { source, limit
    tokens := scanned.tokens
    stmts := parsed.stmts
    faults := scanned.faults
    reports := parsed.reports }

def lastLine (p : Program) : Int := (p.tokens.getLast?.map Token.line).getD 1

def reportEvent (d : Diagnostic) : LogEvent :=
  { level := .trace
    message := utf8 "syntax error"
    attrs := [(utf8 "diagnostic", .failure (.diagnostic d))] }

/-- What a log can tell about the making of a program. -/
def events (p : Program) : List LogEvent :=
  [{ level := .trace
     message := utf8 "scan complete"
     attrs := [(utf8 "tokens", .int p.tokens.length), (utf8 "errors", .int p.faults.length),
       (utf8 "lines", .int p.lastLine)] }] ++
    p.reports.map reportEvent ++
    [{ level := .trace
       message := utf8 "parse complete"
       attrs := [(utf8 "statements", .int p.stmts.length),
         (utf8 "errors", .int p.reports.length)] }]

end Program

end Scribe
