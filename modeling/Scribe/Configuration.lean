import Scribe.Document.Basic
import Scribe.Interpreter
import Scribe.Value.Accept
import Scribe.Value.Literal

/-!
# Configuration

Flags may be set by a script: each of its outermost bindings gives the flag of that name its
value. A hyphen of a flag name is an underscore in a script. The script that sets flags to given
values can be written, and loading it gives the values back.
-/

namespace Scribe

abbrev Configuration := List (Bytes × Document)

namespace Configuration

mutual

/-- What a value gives to a flag: null gives nothing, and a number gives its text. -/
def flagValue? : Value → Option Document
  | .null => none
  | .boolean b => some (.boolean b)
  | .number f => some (.text (Layout.flag.number f))
  | .string text => some (.text text)
  | .array vs => some (.list (flagValues vs))

def flagValues : List Value → List Document
  | [] => []
  | v :: vs =>
      match flagValue? v with
      | some d => d :: flagValues vs
      | none => flagValues vs

end

def ofBindings (b : Bindings) : Configuration :=
  b.entries.filterMap fun (name, v) => (flagValue? v).map (name, ·)

def scriptName (flag : Bytes) : Bytes := Bytes.replace 0x2D 0x5F flag

def get? (c : Configuration) (flag : Bytes) : Option Document :=
  match c.lookup flag with
  | some d => some d
  | none => c.lookup (scriptName flag)

/-- The configuration that a script leaves behind: none if there were any errors. -/
def ofOutcome (o : Interpreter.Outcome) : Configuration :=
  if o.diagnostics.isEmpty then ofBindings o.interpreter.bindings else []

def interpreter : Interpreter := .ofOptions { arrayElements := true }

def load (source : Bytes) : Configuration := ofOutcome (interpreter.run source)

/-- Tells that a script had errors and is not used. -/
def ignoredEvent (ds : List Diagnostic) : LogEvent :=
  { level := .warn
    message := utf8 "ignoring configuration script"
    attrs := [(utf8 "error", .failure (.diagnostics ds))] }

/-! ## Writing -/

inductive Written where
  | literal (text : Bytes)
  /-- The value has no literal, or it is empty and left to its default. -/
  | omitted (v : Value)
  /-- The value is none that a script can hold. -/
  | unsupported

def written (x : Host) : Written :=
  match x.accept with
  | .error _ => .unsupported
  | .ok v =>
      match v.literal? with
      | none => .omitted v
      | some text => if text = utf8 "\"\"" || text = utf8 "[]" then .omitted v else .literal text

def header : Bytes :=
  utf8 "// wz configuration. Flags given on the command line take precedence.\n"

def line (flag : Bytes) (x : Host) : Bytes :=
  match written x with
  | .literal text => utf8 "let " ++ scriptName flag ++ utf8 " = " ++ text ++ utf8 ";\n"
  | _ => []

structure FlagState where
  name : Bytes
  hidden : Bool := false
  value : Host

/-- Flags that ask for something and set nothing. -/
def inquiries : List Bytes := [utf8 "help", utf8 "version"]

/-- What the names of the flags of the profiler begin with. -/
def profiler : Bytes := utf8 "pprof"

/-- Whether a script is to set the flag. -/
def FlagState.isVisible (f : FlagState) : Bool :=
  !(f.hidden || inquiries.contains f.name || profiler.isPrefixOf f.name)

def script (flags : List FlagState) : Bytes :=
  header ++ (flags.filter FlagState.isVisible).flatMap fun f => line f.name f.value

def omittedEvents (flags : List FlagState) : List LogEvent :=
  (flags.filter FlagState.isVisible).filterMap fun f =>
    match written f.value with
    | .omitted v =>
        some
          { level := .debug
            message := utf8 "flag not representable in configuration"
            attrs := [(utf8 "flag", .text f.name), (utf8 "value", Field.ofValue v)] }
    | _ => none

end Configuration

end Scribe
