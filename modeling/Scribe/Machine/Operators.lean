import Scribe.Diagnostic

/-!
# Operators

The operators of expressions on values.
-/

namespace Scribe.Value

def unary (op : Token) (v : Value) : Except RuntimeCause Value :=
  match op.kind, v with
  | .minus, .number f => .ok (.number (-f))
  | .minus, _ => .error (.operandNotNumber op.kind)
  | .bang, v => .ok (.boolean (!v.truthy))
  | _, _ => .error (.unknownUnary op.lexeme)

def arithmetic (op : Token) (a b : Float) : Except RuntimeCause Value :=
  match op.kind with
  | .minus => .ok (.number (a - b))
  | .star => .ok (.number (a * b))
  | .slash => .ok (.number (a / b))
  | .greater => .ok (.boolean (a > b))
  | .greaterEqual => .ok (.boolean (a ≥ b))
  | .less => .ok (.boolean (a < b))
  | .lessEqual => .ok (.boolean (a ≤ b))
  | _ => .error (.unknownBinary op.lexeme)

/-- The sum of two numbers; next to a string, the two texts in a row. -/
def plus (left right : Value) : Except RuntimeCause Value :=
  match left, right with
  | .number a, .number b => .ok (.number (a + b))
  | .string a, right => .ok (.string (a ++ right.display))
  | left, .string b => .ok (.string (left.display ++ b))
  | _, _ => .error .operandsNotAddable

def binary (op : Token) (left right : Value) : Except RuntimeCause Value :=
  match op.kind with
  | .equalEqual => .ok (.boolean (left.equal right))
  | .bangEqual => .ok (.boolean (!left.equal right))
  | .plus => plus left right
  | _ =>
      match left, right with
      | .number a, .number b => arithmetic op a b
      | _, _ => .error (.operandsNotNumbers op.kind)

end Scribe.Value
