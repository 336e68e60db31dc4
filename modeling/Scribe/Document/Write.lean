import Scribe.Document.Json
import Scribe.Document.Yaml
import Scribe.Machine.Basic
import Scribe.Token.Dump
import Scribe.Tree.PrefixForm

/-!
# Writing documents

The forms in which tokens, trees and bindings are written: a native form with one write per line,
or a document that is written at once.
-/

namespace Scribe

namespace Sink

/-- Writes texts in order, up to the first that is refused. -/
def writeEach : List Bytes → Sink → Except Bytes Unit × Sink
  | [], s => (.ok (), s)
  | text :: texts, s =>
      match s.write text with
      | (.ok (), s) => writeEach texts s
      | (.error reason, s) => (.error reason, s)

end Sink

def Bindings.toDocument (b : Bindings) : Document :=
  .record (b.entries.map fun (name, v) => (name, v.toDocument))

namespace Document

/-- The text of a document in a format or why it has none, if there is such a format. -/
def text? (format : Bytes) (indent : Int) (d : Document) : Option (Except Json.Refusal Bytes) :=
  if format = utf8 "json" then some (d.json? indent)
  else if format = utf8 "yaml" then some (.ok (d.yaml indent))
  else none

def write (format : Bytes) (indent : Int) (d : Document) (s : Sink) : Except Failure Unit × Sink :=
  let attrs := [(utf8 "format", Field.text format)]
  match d.text? format indent with
  | none => (.error (Fault.formatOutput.failure.withAttrs attrs), s)
  | some (.error refusal) =>
      (.error (Fault.formatOutput.wrap (.plain refusal.message) attrs), s)
  | some (.ok written) =>
      match s.write written with
      | (.ok (), s) => (.ok (), s)
      | (.error reason, s) => (.error (Fault.formatOutput.wrap (.plain reason) attrs), s)

end Document

def Token.writeAll (tokens : List Token) (s : Sink) : Except Bytes Unit × Sink :=
  Sink.writeEach (tokens.map Token.dumpLine) s

def Stmt.writeAll (stmts : List Stmt) (s : Sink) : Except Bytes Unit × Sink :=
  Sink.writeEach (stmts.map fun stmt => stmt.prefixForm ++ [Bytes.lineFeed]) s

end Scribe
