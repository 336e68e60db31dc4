import Scribe.Formula.Operator

/-!
# Constant parts of formulas

Operators between constants are worked out ahead of evaluation, also where evaluation would never
come, and a conjunction or disjunction with a constant operand is settled by it, so that its other
operand need not have a value.
-/

namespace Scribe

namespace Formula

def constant? : Formula → Option Datum
  | .boolean b => some (.boolean b)
  | .integer n => some (.integer n)
  | .real f => some (.real f)
  | .text s => some (.text s)
  | _ => none

def ofDatum? : Datum → Option Formula
  | .boolean b => some (.boolean b)
  | .integer n => some (.integer n)
  | .real f => some (.real f)
  | .text s => some (.text s)
  | _ => none

def isBoolean (b : Bool) : Formula → Bool
  | .boolean c => b == c
  | _ => false

/-- Whether an operator between two constants is worked out ahead. Comparisons are left to
evaluation, except for the equality of two integers, texts or booleans. -/
def worksAhead : Binary → Datum → Datum → Bool
  | .add, _, _ | .subtract, _, _ | .multiply, _, _ | .divide, _, _ | .modulo, _, _
  | .power, _, _ => true
  | .equal, .integer _, .integer _ | .equal, .text _, .text _
  | .equal, .boolean _, .boolean _ => true
  | _, _, _ => false

/-- A conjunction or disjunction, where `neutral` is the operand that leaves the other one as it
is. -/
def settleLogical (op : Binary) (neutral : Bool) (left right : Formula) : Formula :=
  if left.isBoolean neutral then right
  else if right.isBoolean neutral then left
  else if left.isBoolean !neutral || right.isBoolean !neutral then .boolean !neutral
  else .binary op left right

/-- An operator between settled operands. It fails where a remainder by zero is worked out. -/
def settleBinary? (op : Binary) (left right : Formula) : Option Formula :=
  match op with
  | .and => some (settleLogical .and true left right)
  | .or => some (settleLogical .or false left right)
  | op =>
      match constant? left, constant? right with
      | some a, some b =>
          if worksAhead op a b then (apply op a b).bind ofDatum? else some (.binary op left right)
      | _, _ => some (.binary op left right)

def settleUnary (op : Unary) (e : Formula) : Formula :=
  (((constant? e).bind (applyUnary op)).bind ofDatum?).getD (.unary op e)

mutual

def settled? : Formula → Option Formula
  | .nothing => some .nothing
  | .boolean b => some (.boolean b)
  | .integer n => some (.integer n)
  | .real f => some (.real f)
  | .text s => some (.text s)
  | .name n => some (.name n)
  | .list items => (settledAll? items).map .list
  | .record fields => (settledFields? fields).map .record
  | .unary op e => (settled? e).map (settleUnary op)
  | .binary op left right =>
      match settled? left, settled? right with
      | some l, some r => settleBinary? op l r
      | _, _ => none
  | .choice condition yes no =>
      match settled? condition, settled? yes, settled? no with
      | some c, some y, some n => some (.choice c y n)
      | _, _, _ => none
  | .element base place =>
      match settled? base, settled? place with
      | some b, some p => some (.element b p)
      | _, _ => none
  | .part base start finish =>
      match settled? base, settledBound? start, settledBound? finish with
      | some b, some s, some f => some (.part b s f)
      | _, _, _ => none
  | .call function arguments => (settledAll? arguments).map (.call function)
  | .bind n value body =>
      match settled? value, settled? body with
      | some v, some b => some (.bind n v b)
      | _, _ => none
  | .sequence first second =>
      match settled? first, settled? second with
      | some a, some b => some (.sequence a b)
      | _, _ => none

def settledBound? : Option Formula → Option (Option Formula)
  | none => some none
  | some e => (settled? e).map some

def settledAll? : List Formula → Option (List Formula)
  | [] => some []
  | e :: es =>
      match settled? e, settledAll? es with
      | some e, some es => some (e :: es)
      | _, _ => none

def settledFields? : List (Formula × Formula) → Option (List (Formula × Formula))
  | [] => some []
  | (k, v) :: rest =>
      match settled? k, settled? v, settledFields? rest with
      | some k, some v, some rest => some ((k, v) :: rest)
      | _, _, _ => none

end

end Formula

end Scribe
