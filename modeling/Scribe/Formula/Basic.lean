import Scribe.Value.Host

/-!
# Formulas

A setting on the command line gives a name a value by a formula. Formulas are evaluated before any
script runs, and they know more than scripts do: integers beside real numbers, records, and the
variables of the environment.
-/

namespace Scribe

namespace Formula

inductive Unary where
  | not
  | minus
  | plus
  deriving DecidableEq, Repr

inductive Binary where
  | or
  | and
  | equal
  | differ
  | less
  | greater
  | atMost
  | atLeast
  | add
  | subtract
  | multiply
  | divide
  | modulo
  | power
  deriving DecidableEq, Repr

end Formula

inductive Formula where
  | nothing
  | boolean (b : Bool)
  | integer (n : Int64)
  | real (f : Float)
  | text (s : Bytes)
  | name (n : Bytes)
  | list (items : List Formula)
  | record (fields : List (Formula × Formula))
  | unary (op : Formula.Unary) (e : Formula)
  | binary (op : Formula.Binary) (left right : Formula)
  | choice (condition yes no : Formula)
  | element (base place : Formula)
  | part (base : Formula) (start finish : Option Formula)
  | call (function : Bytes) (arguments : List Formula)
  | bind (name : Bytes) (value body : Formula)
  | sequence (first second : Formula)
  deriving Inhabited

inductive Datum where
  | nothing
  | boolean (b : Bool)
  | integer (n : Int64)
  | real (f : Float)
  | text (s : Bytes)
  | list (items : List Datum)
  | record (fields : List (Bytes × Datum))
  /-- The function that gives a variable of the environment. -/
  | environment
  deriving Inhabited

namespace Datum

mutual

/-- The host data of a datum. Records and functions have no counterpart in scripts. -/
def toHost : Datum → Host
  | .nothing => .nothing
  | .boolean b => .boolean b
  | .integer n => .signed n
  | .real f => .real f
  | .text s => .text s
  | .list items => .list (toHostList items)
  | .record _ => .unsupported (utf8 "record")
  | .environment => .unsupported (utf8 "function")

def toHostList : List Datum → List Host
  | [] => []
  | d :: ds => toHost d :: toHostList ds

end

end Datum

end Scribe
