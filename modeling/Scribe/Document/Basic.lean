import Scribe.Tree.Basic

/-!
# Documents

The data that is written as JSON or YAML. The fields of a record stand in the order of their
keys. Values, tokens and trees all have a document; a number that is not finite becomes its text,
so no number keeps a document from being written.
-/

namespace Scribe

inductive Document where
  | null
  | boolean (b : Bool)
  | integer (n : Int)
  | number (f : Float)
  | text (s : Bytes)
  | list (items : List Document)
  | record (fields : List (Bytes × Document))

namespace Document

def ofString (s : String) : Document := .text (utf8 s)

def field (name : String) (d : Document) : Bytes × Document := (utf8 name, d)

end Document

namespace Value

mutual

def toDocument : Value → Document
  | .null => .null
  | .boolean b => .boolean b
  | .number f =>
      if f.isNaN || f.isInf then .text (Layout.plain.number f) else .number f
  | .string text => .text text
  | .array vs => .list (toDocuments vs)

def toDocuments : List Value → List Document
  | [] => []
  | v :: vs => toDocument v :: toDocuments vs

end

end Value

namespace Token

open Document

def toDocument (t : Token) : Document :=
  .record ([field "kind" (.text t.kind.name), field "lexeme" (.text t.lexeme),
      field "line" (.integer t.line)] ++
    if t.kind.hasLiteral then [field "literal" t.literal.toDocument] else [])

end Token

namespace Expr

open Document

mutual

def toDocument : Expr → Document
  | .absent => .null
  | .literal value line =>
      .record [field "line" (.integer line), field "node" (ofString "literal"),
        field "value" value.toDocument]
  | .reference name =>
      .record [field "line" (.integer name.line), field "name" (.text name.lexeme),
        field "node" (ofString "variable")]
  | .assign name value =>
      .record [field "line" (.integer name.line), field "name" (.text name.lexeme),
        field "node" (ofString "assign"), field "value" (toDocument value)]
  | .unary op operand =>
      .record [field "line" (.integer op.line), field "node" (ofString "unary"),
        field "op" (.text op.kind.name), field "operand" (toDocument operand)]
  | .binary left op right =>
      .record [field "left" (toDocument left), field "line" (.integer op.line),
        field "node" (ofString "binary"), field "op" (.text op.kind.name),
        field "right" (toDocument right)]
  | .array bracket elems =>
      .record [field "elements" (.list (toDocuments elems)),
        field "line" (.integer bracket.line), field "node" (ofString "array")]

def toDocuments : List Expr → List Document
  | [] => []
  | e :: es => toDocument e :: toDocuments es

end

end Expr

namespace Stmt

open Document

mutual

/-- The document of a statement; a statement without a line shows line zero. -/
def toDocument : Stmt → Document
  | .absent => .null
  | .print keyword e =>
      .record [field "expr" e.toDocument, field "line" (.integer keyword.line),
        field "node" (ofString "print")]
  | .expression e =>
      .record [field "expr" e.toDocument, field "line" (.integer e.line),
        field "node" (ofString "expression")]
  | .declare name init =>
      .record ((if init.isAbsent then [] else [field "init" init.toDocument]) ++
        [field "line" (.integer name.line), field "name" (.text name.lexeme),
          field "node" (ofString "let")])
  | .block brace stmts =>
      .record [field "line" (.integer brace.line), field "node" (ofString "block"),
        field "stmts" (.list (toDocuments stmts))]
  | .branch keyword cond yes no =>
      .record ([field "cond" cond.toDocument] ++
        (if no.isAbsent then [] else [field "else" (toDocument no)]) ++
        [field "line" (.integer keyword.line), field "node" (ofString "if"),
          field "then" (toDocument yes)])

def toDocuments : List Stmt → List Document
  | [] => []
  | s :: ss => toDocument s :: toDocuments ss

end

end Stmt

end Scribe
