import Scribe.Machine.Basic
import Scribe.Machine.Operators

/-!
# Evaluating expressions

Operands are evaluated from left to right, each one level deeper than its operator. The first
fault ends the evaluation.
-/

namespace Scribe

namespace Action

def ofExcept (line : Int) : Except RuntimeCause Value → Action Value
  | .ok v => pure v
  | .error cause => fault line cause

end Action

mutual

def evaluate (o : Options) : Expr → Action Value
  | .absent => Action.fault 0 .missingExpression
  | .literal v line => Action.nested o.limit line (pure v)
  | .reference name => Action.nested o.limit name.line (Action.get name)
  | .assign name e => Action.nested o.limit name.line do
      let v ← evaluate o e
      Action.assign name.lexeme v
      pure v
  | .unary op e => Action.nested o.limit op.line do
      let v ← evaluate o e
      Action.ofExcept op.line (Value.unary op v)
  | .binary left op right => Action.nested o.limit op.line do
      let a ← evaluate o left
      let b ← evaluate o right
      Action.ofExcept op.line (Value.binary op a b)
  | .array bracket elems => Action.nested o.limit bracket.line
      (if o.arrayElements then do
        let vs ← evaluateAll o elems
        pure (.array vs)
      else pure (.array []))

def evaluateAll (o : Options) : List Expr → Action (List Value)
  | [] => pure []
  | e :: es => do
      let v ← evaluate o e
      let vs ← evaluateAll o es
      pure (v :: vs)

end

end Scribe
