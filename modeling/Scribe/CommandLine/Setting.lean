import Scribe.Formula.Evaluate
import Scribe.Token.Scan
import Scribe.Value.Accept

/-!
# Settings

A setting binds a name before any script runs: the name, an equals sign and a formula. A formula
sees the names bound before it, and a function that gives the variables of the environment.
-/

namespace Scribe

namespace Setting

/-- Whether a name scans as exactly one identifier. -/
def isIdentifier (name : Bytes) : Bool :=
  let r := scan name
  match r.faults, r.tokens with
  | [], [t, _] => t.kind = .identifier
  | _, _ => false

def invalid (setting : Bytes) : Failure :=
  Fault.setBinding.failure.withAttrs [(utf8 "binding", .text setting)]

def split? (setting : Bytes) : Option (Bytes × Bytes) :=
  match Bytes.cut? 0x3D setting with
  | some (name, source) =>
      let name := Bytes.trim name
      if isIdentifier name then some (name, source) else none
  | none => none

def bindName (name : Bytes) (d : Datum) (names : List (Bytes × Datum)) : List (Bytes × Datum) :=
  (name, d) :: names.filter (·.1 ≠ name)

/-- The values of settings, in order. `evaluate?` gives the datum of a formula among the names
bound so far. -/
def valuesFrom (evaluate? : List (Bytes × Datum) → Bytes → Option Datum)
    (names : List (Bytes × Datum)) : List Bytes → Except Failure (List (Bytes × Value))
  | [] => .ok []
  | setting :: rest =>
      match split? setting with
      | none => .error (invalid setting)
      | some (name, source) =>
          match evaluate? names source with
          | none => .error (invalid setting)
          | some d =>
              match d.toHost.accept with
              | .error cause => .error ((invalid setting).wrap cause)
              | .ok v =>
                  match valuesFrom evaluate? (bindName name d names) rest with
                  | .error e => .error e
                  | .ok values => .ok ((name, v) :: values)

/-- The name of the function that gives a variable of the environment. -/
def environmentName : Bytes := utf8 "env"

def values (environment : Bytes → Bytes) (settings : List Bytes) :
    Except Failure (List (Bytes × Value)) :=
  valuesFrom (fun names source => Formula.run? { names, environment } source)
    [(environmentName, .environment)] settings

end Setting

end Scribe
