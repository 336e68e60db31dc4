import Scribe.Token.Basic

/-!
# Syntax trees

Expressions and statements. A tree built by hand may leave any position empty; an empty position
holds `absent`. An optional position that is `absent` means that nothing was written there, a
required one is a fault when it is reached.
-/

namespace Scribe

inductive Expr where
  | absent
  | literal (value : Value) (line : Int)
  | reference (name : Token)
  | assign (name : Token) (value : Expr)
  | unary (op : Token) (operand : Expr)
  | binary (left : Expr) (op : Token) (right : Expr)
  | array (bracket : Token) (elems : List Expr)
  deriving Inhabited

namespace Expr

def line : Expr → Int
  | .absent => 0
  | .literal _ line => line
  | .reference name => name.line
  | .assign name _ => name.line
  | .unary op _ => op.line
  | .binary _ op _ => op.line
  | .array bracket _ => bracket.line

def isAbsent : Expr → Bool
  | .absent => true
  | _ => false

end Expr

inductive Stmt where
  | absent
  | print (keyword : Token) (expr : Expr)
  | expression (expr : Expr)
  | declare (name : Token) (init : Expr)
  | block (brace : Token) (stmts : List Stmt)
  | branch (keyword : Token) (cond : Expr) (yes no : Stmt)
  deriving Inhabited

namespace Stmt

def isAbsent : Stmt → Bool
  | .absent => true
  | _ => false

/-- The line a statement originates from. An expression statement has the line of its expression,
and without one it has none. -/
def line? : Stmt → Option Int
  | .absent => none
  | .print keyword _ => some keyword.line
  | .expression .absent => none
  | .expression e => some e.line
  | .declare name _ => some name.line
  | .block brace _ => some brace.line
  | .branch keyword _ _ _ => some keyword.line

def form : Stmt → String
  | .absent => "<nil>"
  | .print .. => "*lang.PrintStmt"
  | .expression .. => "*lang.ExpressionStmt"
  | .declare .. => "*lang.VarDecl"
  | .block .. => "*lang.Block"
  | .branch .. => "*lang.IfStmt"

end Stmt

end Scribe
