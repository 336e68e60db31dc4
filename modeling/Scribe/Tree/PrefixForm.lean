import Scribe.Tree.Basic

/-!
# Prefix form

A tree in parentheses, operator first. An absent part is written as nothing.
-/

namespace Scribe

namespace Expr

mutual

/-- The prefix form of an expression, followed by `tail`. -/
def formOnto : Expr → (tail : Bytes) → Bytes
  | .absent, tail => tail
  | .literal (.string text) _, tail => text.quoted ++ tail
  | .literal value _, tail => value.display ++ tail
  | .reference name, tail => name.lexeme ++ tail
  | .assign name value, tail =>
      utf8 "(= " ++ name.lexeme ++ [Bytes.space] ++ formOnto value (0x29 :: tail)
  | .unary op operand, tail =>
      0x28 :: (op.lexeme ++ [Bytes.space] ++ formOnto operand (0x29 :: tail))
  | .binary left op right, tail =>
      0x28 :: (op.lexeme ++ [Bytes.space] ++
        formOnto left (Bytes.space :: formOnto right (0x29 :: tail)))
  | .array _ elems, tail => utf8 "(array" ++ formsOnto elems (0x29 :: tail)

def formsOnto : List Expr → (tail : Bytes) → Bytes
  | [], tail => tail
  | e :: es, tail => Bytes.space :: formOnto e (formsOnto es tail)

end

def prefixForm (e : Expr) : Bytes := formOnto e []

end Expr

namespace Stmt

mutual

def formOnto : Stmt → (tail : Bytes) → Bytes
  | .absent, tail => tail
  | .print _ e, tail => utf8 "(print " ++ e.formOnto (0x29 :: tail)
  | .expression e, tail => utf8 "(expr " ++ e.formOnto (0x29 :: tail)
  | .declare name init, tail =>
      utf8 "(let " ++ name.lexeme ++
        (if init.isAbsent then 0x29 :: tail else Bytes.space :: init.formOnto (0x29 :: tail))
  | .block _ stmts, tail => utf8 "(block" ++ formsOnto stmts (0x29 :: tail)
  | .branch _ cond yes no, tail =>
      utf8 "(if " ++ cond.formOnto (Bytes.space :: formOnto yes
        (if no.isAbsent then 0x29 :: tail else Bytes.space :: formOnto no (0x29 :: tail)))

def formsOnto : List Stmt → (tail : Bytes) → Bytes
  | [], tail => tail
  | s :: ss, tail => Bytes.space :: formOnto s (formsOnto ss tail)

end

def prefixForm (s : Stmt) : Bytes := formOnto s []

end Stmt

end Scribe
