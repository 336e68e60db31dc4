import Scribe.Formula.Basic
import Scribe.Formula.Power

/-!
# Operators of formulas

Integers wrap around at 64 bits. Quotients and powers are real numbers, and a sum, difference or
product is real as soon as one operand is.
-/

namespace Scribe

namespace Datum

def toFloat? : Datum → Option Float
  | .integer n => some n.toFloat
  | .real f => some f
  | _ => none

mutual

/-- Equality in every detail: an integer differs from every real number. -/
def same : Datum → Datum → Bool
  | .nothing, .nothing => true
  | .boolean a, .boolean b => a == b
  | .integer a, .integer b => a == b
  | .real a, .real b => a == b
  | .text a, .text b => a == b
  | .list as, .list bs => sameAll as bs
  | .record as, .record bs => as.length == bs.length && sameFields as bs
  | _, _ => false

def sameAll : List Datum → List Datum → Bool
  | [], [] => true
  | a :: as, b :: bs => same a b && sameAll as bs
  | _, _ => false

def sameFields : List (Bytes × Datum) → List (Bytes × Datum) → Bool
  | [], _ => true
  | (k, a) :: as, bs =>
      (match bs.lookup k with
        | some b => same a b
        | none => false) && sameFields as bs

end

mutual

/-- Equality of formulas: numbers are equal by value. -/
def equal : Datum → Datum → Bool
  | .integer a, .integer b => a == b
  | .integer a, .real b => a.toFloat == b
  | .real a, .integer b => a == b.toFloat
  | .list as, .list bs => equalAll as bs
  | a, b => same a b

def equalAll : List Datum → List Datum → Bool
  | [], [] => true
  | a :: as, b :: bs => equal a b && equalAll as bs
  | _, _ => false

end

end Datum

namespace Formula

def arithmetic (onInts : Int64 → Int64 → Int64) (onReals : Float → Float → Float) (a b : Datum) :
    Option Datum :=
  match a, b with
  | .integer m, .integer n => some (.integer (onInts m n))
  | a, b =>
      match a.toFloat?, b.toFloat? with
      | some x, some y => some (.real (onReals x y))
      | _, _ => none

def onReals (f : Float → Float → Float) (a b : Datum) : Option Datum :=
  match a.toFloat?, b.toFloat? with
  | some x, some y => some (.real (f x y))
  | _, _ => none

def ordered (onInts : Int64 → Int64 → Bool) (onReals : Float → Float → Bool)
    (onTexts : Bytes → Bytes → Bool) (a b : Datum) : Option Datum :=
  match a, b with
  | .integer m, .integer n => some (.boolean (onInts m n))
  | .text s, .text t => some (.boolean (onTexts s t))
  | a, b =>
      match a.toFloat?, b.toFloat? with
      | some x, some y => some (.boolean (onReals x y))
      | _, _ => none

def apply (op : Binary) (a b : Datum) : Option Datum :=
  match op with
  | .equal => some (.boolean (a.equal b))
  | .differ => some (.boolean !(a.equal b))
  | .less => ordered (· < ·) (· < ·) (fun s t => s < t) a b
  | .greater => ordered (· > ·) (· > ·) (fun s t => t < s) a b
  | .atMost => ordered (· ≤ ·) (· ≤ ·) (fun s t => s ≤ t) a b
  | .atLeast => ordered (· ≥ ·) (· ≥ ·) (fun s t => t ≤ s) a b
  | .add =>
      match a, b with
      | .text s, .text t => some (.text (s ++ t))
      | a, b => arithmetic (· + ·) (· + ·) a b
  | .subtract => arithmetic (· - ·) (· - ·) a b
  | .multiply => arithmetic (· * ·) (· * ·) a b
  | .divide => onReals (· / ·) a b
  | .power => onReals power a b
  | .modulo =>
      match a, b with
      | .integer m, .integer n => if n = 0 then none else some (.integer (m % n))
      | _, _ => none
  | .or | .and => none

def applyUnary : Unary → Datum → Option Datum
  | .not, .boolean b => some (.boolean !b)
  | .minus, .integer n => some (.integer (-n))
  | .minus, .real f => some (.real (-f))
  | .plus, .integer n => some (.integer n)
  | .plus, .real f => some (.real f)
  | _, _ => none

end Formula

end Scribe
