import Scribe.Journal.Plain
import Scribe.Journal.Pretty

/-!
# Loggers

A logger has settings and a writer made from them. New settings give a new writer, which starts
without attributes and groups.
-/

namespace Scribe

structure LogSettings where
  /-- Whether records go anywhere at all. -/
  silent : Bool := false
  timeLayout : Bytes := utf8 "2006-01-02T15:04:05Z07:00"
  level : Level := .default
  format : RecordFormat := .default
  /-- Whether records name the place that they were logged from. No place is known here. -/
  caller : Bool := false
  pretty : Bool := true

inductive LogWriter where
  | pretty (json : Bool) (h : Pretty)
  | plain (h : Plain)
  /-- Takes no records. -/
  | discard

namespace LogWriter

/-- The writer for the settings. Records are the same with and without `caller`: the place that they
were logged from, which is the only thing that they would have besides, is left out. -/
def ofSettings (s : LogSettings) : LogWriter :=
  match s.format, s.pretty with
  | .json, true => .pretty true {}
  | .text, true => .pretty false {}
  | .json, false => .plain { style := ⟨true, s.timeLayout⟩ }
  | .text, false => .plain { style := ⟨false, s.timeLayout⟩ }
  | .unnamed _, _ => .discard

def withAttrs (attrs : List Attr) : LogWriter → LogWriter
  | .pretty json h => .pretty json (h.withAttrs attrs)
  | .plain h => .plain (h.withAttrs attrs)
  | .discard => .discard

def withGroup (name : Bytes) : LogWriter → LogWriter
  | .pretty json h => .pretty json (h.withGroup name)
  | .plain h => .plain (h.withGroup name)
  | .discard => .discard

def record (time : Option Bytes) (level : Level) (message : Bytes) (attrs : List Attr) :
    LogWriter → Bytes
  | .pretty json h => h.record json time level message attrs
  | .plain h => h.record time level message attrs
  | .discard => []

end LogWriter

/-- A logger; the one that is `unset` takes no records and has the default settings. -/
inductive Logger where
  | unset
  | active (settings : LogSettings) (writer : LogWriter)

/-- Something to log, before it is known whether anyone listens. -/
structure LogEvent where
  level : Level
  message : Bytes
  attrs : List Attr := []

namespace Logger

def ofSettings (s : LogSettings) : Logger := .active s (.ofSettings s)

def settings : Logger → LogSettings
  | .unset => {}
  | .active s _ => s

/-- A logger with changed settings. What starts from no logger is silent unless the change says
otherwise. -/
def configure (change : LogSettings → LogSettings) : Logger → Logger
  | .unset => ofSettings (change { silent := true })
  | .active s _ => ofSettings (change s)

def withAttrs (attrs : List Attr) : Logger → Logger
  | .unset => .unset
  | .active s w => .active s (w.withAttrs attrs)

/-- A group without a name changes nothing. -/
def withGroup (name : Bytes) : Logger → Logger
  | .unset => .unset
  | .active s w => if name.isEmpty then .active s w else .active s (w.withGroup name)

def isEnabled (level : Level) : Logger → Bool
  | .unset | .active _ .discard => false
  | .active s _ => level.reaches s.level

def write (log : Logger) (e : LogEvent) (now : Option Instant := none) : Bytes :=
  match log with
  | .unset => []
  | .active s w =>
      if (Logger.active s w).isEnabled e.level && !s.silent then
        let time := now.bind fun t =>
          let text := TimeLayout.text s.timeLayout t
          if text.isEmpty then none else some text
        w.record time e.level e.message e.attrs
      else []

def writeAll (log : Logger) (es : List LogEvent) : Bytes := es.flatMap fun e => log.write e

end Logger

end Scribe
