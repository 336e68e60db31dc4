import Scribe.Journal.Logger

/-!
# Log flags

The flags that set up the log take effect before the command line is read as a whole, so that
complaints about it are already logged as asked. An early pass picks them out of the arguments;
it knows nothing of other flags, and takes no offence at anything.
-/

namespace Scribe

/-- A boolean as written: true and false in three spellings, as a letter or as a digit. -/
def readBool? (text : Bytes) : Option Bool :=
  if ["1", "t", "T", "true", "TRUE", "True"].any (utf8 · = text) then some true
  else if ["0", "f", "F", "false", "FALSE", "False"].any (utf8 · = text) then some false
  else none

inductive LogChange where
  | level (text : Bytes)
  | format (text : Bytes)
  | caller (on : Bool)
  | pretty (on : Bool)
  deriving DecidableEq

/-- The log flags as far as they have been given; a text that has not been given is empty. -/
structure LogFlags where
  level : Bytes := []
  format : Bytes := []
  caller : Bool := false
  pretty : Bool := true
  deriving DecidableEq

namespace LogFlags

def apply (f : LogFlags) : LogChange → LogFlags
  | .level text => { f with level := text }
  | .format text => { f with format := text }
  | .caller on => { f with caller := on }
  | .pretty on => { f with pretty := on }

end LogFlags

def LogSettings.apply (s : LogSettings) : LogChange → LogSettings
  | .level text => { s with level := .read text }
  | .format text => { s with format := .read text }
  | .caller on => { s with caller := on }
  | .pretty on => { s with pretty := on }

inductive LogArgument where
  /-- The end of the flags. -/
  | stop
  /-- A flag with its value. -/
  | change (c : LogChange)
  /-- A flag that takes the next argument as its value. -/
  | awaits (make : Bytes → LogChange)
  | other

namespace LogArgument

def valued? (name : Bytes) : Option (Bytes → LogChange) :=
  if name = utf8 "level" then some .level
  else if name = utf8 "format" then some .format
  else none

def switch? (name : Bytes) : Option (Bool → LogChange) :=
  if name = utf8 "caller" then some .caller
  else if name = utf8 "pretty" then some .pretty
  else none

/-- A flag without the part of its name that all log flags share. -/
def ofFlag (negated : Bool) (text : Bytes) : LogArgument :=
  let (name, value?) :=
    match Bytes.cut? 0x3D text with
    | some (name, value) => (name, some value)
    | none => (text, none)
  match (if negated then none else valued? name), switch? name with
  | some make, _ => (value?.map fun v => .change (make v)).getD (.awaits make)
  | none, some make =>
      match value? with
      | none => .change (make !negated)
      | some v => ((readBool? v).map fun b => .change (make (b != negated))).getD .other
  | none, none => .other

def read (argument : Bytes) : LogArgument :=
  if argument = utf8 "--" then .stop
  else
    match Bytes.dropStart? argument (utf8 "--no-log-"),
        Bytes.dropStart? argument (utf8 "--log-") with
    | some rest, _ => ofFlag true rest
    | none, some rest => ofFlag false rest
    | none, none => .other

end LogArgument

/-- The changes that a list of arguments asks for, in order. A value that is not attached to its
flag must not look like a flag. -/
def logChanges : List Bytes → List LogChange
  | [] => []
  | argument :: rest =>
      match LogArgument.read argument with
      | .stop => []
      | .change c => c :: logChanges rest
      | .other => logChanges rest
      | .awaits make =>
          match rest with
          | [] => []
          | value :: after =>
              if Bytes.startsWith value (utf8 "-") then logChanges (value :: after)
              else make value :: logChanges after

namespace LogFlags

def scan (f : LogFlags) (arguments : List Bytes) : LogFlags :=
  (logChanges arguments).foldl apply f

end LogFlags

def LogSettings.scan (s : LogSettings) (arguments : List Bytes) : LogSettings :=
  (logChanges arguments).foldl LogSettings.apply s

end Scribe
