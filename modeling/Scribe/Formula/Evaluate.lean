import Scribe.Decimal.Integer
import Scribe.Formula.Check
import Scribe.Formula.Fold
import Scribe.Formula.Parse

/-!
# Evaluating formulas

A formula's text is read, its types are checked, its constant parts are settled, and what is left
is evaluated from the left to the right.
-/

namespace Scribe

namespace Formula

/-- A real number without its fraction; the least integer if it is too large or no number. -/
def truncated (f : Float) : Int64 :=
  if -9223372036854775808.0 ≤ f && f < 9223372036854775808.0 then f.toInt64 else Int64.minValue

def placeOf : Datum → Option Int
  | .integer n => some n.toInt
  | .real f => some (truncated f).toInt
  | .text s => Decimal.readDigits? s
  | _ => none

/-- An item at a place, counted from the end if negative. -/
def itemAt {α : Type} (items : List α) (place : Int) : Option α :=
  let i := if place < 0 then items.length + place else place
  if i < 0 then none else items[i.toNat]?

/-- An element of a list, a byte of a text or a field of a record. A field that is missing is
nothing. -/
def elementOf : Datum → Datum → Option Datum
  | .list items, place => (placeOf place).bind (itemAt items)
  | .text s, place =>
      ((placeOf place).bind (itemAt s)).map fun b => .integer (Int64.ofNat b.toNat)
  | .record fields, .text k => some ((fields.lookup k).getD .nothing)
  | _, _ => none

def bounds (length : Nat) (start finish : Int) : Nat × Nat :=
  let settle (i : Int) : Nat := if i < 0 then (length + i).toNat else i.toNat
  let last := min (settle finish) length
  (min (settle start) last, last)

def partOf (base : Datum) (start finish : Option Int) : Option Datum :=
  let cut {α : Type} (xs : List α) : List α :=
    let (s, f) := bounds xs.length (start.getD 0) (finish.getD xs.length)
    (xs.take f).drop s
  match base with
  | .list items => some (.list (cut items))
  | .text s => some (.text (cut s))
  | _ => none

def lengthOf : Datum → Option Datum
  | .list items => some (.integer (Int64.ofNat items.length))
  | .record fields => some (.integer (Int64.ofNat fields.length))
  | .text s => some (.integer (Int64.ofNat s.chars.length))
  | _ => none

def setField (k : Bytes) (v : Datum) : List (Bytes × Datum) → List (Bytes × Datum)
  | [] => [(k, v)]
  | (k', w) :: rest => if k = k' then (k, v) :: rest else (k', w) :: setField k v rest

structure Scene where
  names : List (Bytes × Datum)
  environment : Bytes → Bytes

def callOf (scene : Scene) (function : Bytes) (arguments : List Datum) : Option Datum :=
  match scene.names.lookup function, arguments with
  | some .environment, [.text n] => some (.text (scene.environment n))
  | none, [d] => if function = lengthName then lengthOf d else none
  | _, _ => none

mutual

def evaluate? (scene : Scene) : Formula → Option Datum
  | .nothing => some .nothing
  | .boolean b => some (.boolean b)
  | .integer n => some (.integer n)
  | .real f => some (.real f)
  | .text s => some (.text s)
  | .name n =>
      match scene.names.lookup n with
      | some d => some d
      | none => if functionNames.contains n then some .nothing else none
  | .list items => (evaluateAll? scene items).map .list
  | .record fields => (evaluateFields? scene [] fields).map .record
  | .unary op e => (evaluate? scene e).bind (applyUnary op)
  | .binary op left right =>
      match op, evaluate? scene left with
      | .or, some (.boolean true) => some (.boolean true)
      | .and, some (.boolean false) => some (.boolean false)
      | .or, some (.boolean false) | .and, some (.boolean true) => evaluate? scene right
      | op, some a =>
          match evaluate? scene right with
          | some b => apply op a b
          | none => none
      | _, none => none
  | .choice condition yes no =>
      match evaluate? scene condition with
      | some (.boolean true) => evaluate? scene yes
      | some (.boolean false) => evaluate? scene no
      | _ => none
  | .element base place =>
      match evaluate? scene base, evaluate? scene place with
      | some b, some p => elementOf b p
      | _, _ => none
  | .part base start finish =>
      match evaluate? scene base, evaluateBound? scene start, evaluateBound? scene finish with
      | some b, some s, some f => partOf b s f
      | _, _, _ => none
  | .call function arguments => (evaluateAll? scene arguments).bind (callOf scene function)
  | .bind n value body =>
      match evaluate? scene value with
      | some d => evaluate? { scene with names := (n, d) :: scene.names } body
      | none => none
  | .sequence first second =>
      match evaluate? scene first with
      | some _ => evaluate? scene second
      | none => none

def evaluateBound? (scene : Scene) : Option Formula → Option (Option Int)
  | none => some none
  | some e =>
      match evaluate? scene e with
      | some d => (placeOf d).map some
      | none => none

def evaluateAll? (scene : Scene) : List Formula → Option (List Datum)
  | [] => some []
  | e :: es =>
      match evaluate? scene e, evaluateAll? scene es with
      | some d, some ds => some (d :: ds)
      | _, _ => none

def evaluateFields? (scene : Scene) (done : List (Bytes × Datum)) :
    List (Formula × Formula) → Option (List (Bytes × Datum))
  | [] => some done
  | (k, v) :: rest =>
      match evaluate? scene k, evaluate? scene v with
      | some (.text key), some d => evaluateFields? scene (setField key d done) rest
      | _, _ => none

end

/-- The datum of a formula's text: none if the text is no formula, if its types do not fit, or if
its evaluation fails. -/
def run? (scene : Scene) (source : Bytes) : Option Datum :=
  match read? source with
  | none => none
  | some e =>
      match nature? (scene.names.map fun (n, d) => (n, Nature.ofDatum d)) e with
      | none => none
      | some _ =>
          match settled? e with
          | some e => evaluate? scene e
          | none => none

end Formula

end Scribe
