import Scribe.Diagnostic
import Scribe.Journal.Clock

/-!
# Failures

Errors that end an operation. A failure may name a defined fault, carry the failure that caused
it, and carry attributes for the log. Attributes may hold failures in turn, so the two types are
defined together.
-/

namespace Scribe

/-- The two families of defined faults. A fault never matches one of the other family. -/
inductive Family where
  | script
  | command
  deriving DecidableEq, Repr

mutual

inductive Failure where
  | plain (text : Bytes)
  /-- A failure behind a few words on what was being done. -/
  | context (text : Bytes) (cause : Failure)
  | coded (family : Family) (message : Bytes) (cause : Option Failure)
      (attrs : List (Bytes × Field))
  | diagnostic (d : Diagnostic)
  | diagnostics (ds : List Diagnostic)

inductive Field where
  | null
  | text (s : Bytes)
  | int (n : Int)
  | uint (n : Nat)
  | float (f : Float)
  | boolean (b : Bool)
  | duration (d : Duration)
  | time (t : Instant)
  | texts (items : List Bytes)
  | failure (e : Failure)
  | group (attrs : List (Bytes × Field))

end

instance : Inhabited Failure := ⟨.plain []⟩

instance : Inhabited Field := ⟨.null⟩

abbrev Attr := Bytes × Field

/-- The faults that callers can tell apart. -/
inductive Fault where
  | readInput
  | invalidValueType
  | lexical
  | syntactic
  | runtime
  | openSource
  | scriptNotFound
  | setBinding
  | scriptFailed
  | formatOutput
  | writeConfig
  | fileExists
  deriving DecidableEq, Repr

namespace Fault

def all : List Fault :=
  [.readInput, .invalidValueType, .lexical, .syntactic, .runtime, .openSource, .scriptNotFound,
    .setBinding, .scriptFailed, .formatOutput, .writeConfig, .fileExists]

def family : Fault → Family
  | .readInput | .invalidValueType | .lexical | .syntactic | .runtime => .script
  | _ => .command

def message : Fault → String
  | .readInput => "failed to read input"
  | .invalidValueType => "invalid value type"
  | .lexical => "lexical error"
  | .syntactic => "syntax error"
  | .runtime => "runtime error"
  | .openSource => "open source"
  | .scriptNotFound => "script not found in include path"
  | .setBinding => "invalid --set binding"
  | .scriptFailed => "script reported errors"
  | .formatOutput => "format output"
  | .writeConfig => "write configuration file"
  | .fileExists => "file exists (use --force to overwrite)"

/-- The fault that every diagnostic of a phase is an instance of. -/
def ofPhase : Phase → Fault
  | .lexical => .lexical
  | .syntactic => .syntactic
  | _ => .runtime

def failure (fault : Fault) : Failure := .coded fault.family (utf8 fault.message) none []

def wrap (fault : Fault) (cause : Failure) (attrs : List Attr := []) : Failure :=
  .coded fault.family (utf8 fault.message) (some cause) attrs

end Fault

namespace Field

def ofValue : Value → Field
  | .boolean b => .boolean b
  | .number f => .float f
  | v => .text v.display

def ofToken (t : Token) : Field :=
  .group [(utf8 "kind", .text t.kind.name), (utf8 "lexeme", .text t.lexeme),
    (utf8 "line", .int t.line)]

end Field

namespace Failure

/-- The wording of a failure: its own message, then the one of its cause. -/
def text : Failure → Bytes
  | .plain text => text
  | .context text cause => text ++ utf8 ": " ++ cause.text
  | .coded _ message none _ => message
  | .coded _ message (some cause) _ =>
      if message.isEmpty then cause.text else message ++ utf8 ": " ++ cause.text
  | .diagnostic d => d.text
  | .diagnostics ds => Diagnostic.textAll ds

/-- The failure that directly caused this one. A list of diagnostics has no single cause. -/
def cause? : Failure → Option Failure
  | .context _ cause => some cause
  | .coded _ _ cause _ => cause
  | .diagnostic d => some (Fault.ofPhase d.phase).failure
  | _ => none

/-- Whether a failure, or one of its causes, is an instance of a fault. -/
def isA (fault : Fault) : Failure → Bool
  | .plain _ => false
  | .context _ cause => isA fault cause
  | .coded family message none _ => family == fault.family && message == utf8 fault.message
  | .coded family message (some cause) _ =>
      (family == fault.family && message == utf8 fault.message) || isA fault cause
  | .diagnostic d => Fault.ofPhase d.phase == fault
  | .diagnostics ds => ds.any fun d => Fault.ofPhase d.phase == fault

def firstOf? (faults : List Fault) (e : Failure) : Option Fault := faults.find? (e.isA ·)

def diagnostic? : Failure → Option Diagnostic
  | .context _ cause => cause.diagnostic?
  | .coded _ _ (some cause) _ => cause.diagnostic?
  | .diagnostic d => some d
  | .diagnostics ds => ds.head?
  | _ => none

def script? : Failure → Option Failure
  | .plain _ => none
  | .context _ cause => cause.script?
  | .coded .script message cause attrs => some (.coded .script message cause attrs)
  | .coded .command _ (some cause) _ => cause.script?
  | .coded .command _ none _ => none
  | .diagnostic d => some (Fault.ofPhase d.phase).failure
  | .diagnostics ds => ds.head?.map fun d => (Fault.ofPhase d.phase).failure

/-- A failure of the script family: the first one found in it, or a new one around it. -/
def toScript (e : Failure) : Failure := e.script?.getD (.coded .script [] (some e) [])

def wrap (e cause : Failure) : Failure :=
  match e with
  | .coded family message _ attrs => .coded family message (some cause) attrs
  | e => e

def withAttrs (e : Failure) (more : List Attr) : Failure :=
  match e with
  | .coded family message cause attrs => .coded family message cause (attrs ++ more)
  | e => e

end Failure

end Scribe
