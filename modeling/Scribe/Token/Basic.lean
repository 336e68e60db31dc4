import Scribe.Value.Display

/-!
# Tokens
-/

namespace Scribe

/-- The lexical category of a token. `unnamed` is a category that no scan produces; it keeps its
number. -/
inductive TokenKind where
  | leftParen
  | rightParen
  | leftBrace
  | rightBrace
  | leftBracket
  | rightBracket
  | comma
  | dot
  | minus
  | plus
  | semicolon
  | slash
  | star
  | bang
  | bangEqual
  | equal
  | equalEqual
  | greater
  | greaterEqual
  | less
  | lessEqual
  | identifier
  | string
  | number
  | kwAnd
  | kwClass
  | kwElse
  | kwFalse
  | kwFun
  | kwFor
  | kwIf
  | kwNil
  | kwOr
  | kwNot
  | kwPrint
  | kwReturn
  | kwSuper
  | kwThis
  | kwTrue
  | kwVar
  | kwWhile
  | kwLet
  | eof
  | unnamed (code : Int)
  deriving DecidableEq, Repr

namespace TokenKind

def table : List (TokenKind × String) :=
  [(.leftParen, "LEFT_PAREN"), (.rightParen, "RIGHT_PAREN"), (.leftBrace, "LEFT_BRACE"),
    (.rightBrace, "RIGHT_BRACE"), (.leftBracket, "LEFT_BRACKET"),
    (.rightBracket, "RIGHT_BRACKET"), (.comma, "COMMA"), (.dot, "DOT"), (.minus, "MINUS"),
    (.plus, "PLUS"), (.semicolon, "SEMICOLON"), (.slash, "SLASH"), (.star, "STAR"),
    (.bang, "BANG"), (.bangEqual, "BANG_EQUAL"), (.equal, "EQUAL"),
    (.equalEqual, "EQUAL_EQUAL"), (.greater, "GREATER"), (.greaterEqual, "GREATER_EQUAL"),
    (.less, "LESS"), (.lessEqual, "LESS_EQUAL"), (.identifier, "IDENTIFIER"),
    (.string, "STRING"), (.number, "NUMBER"), (.kwAnd, "AND"), (.kwClass, "CLASS"),
    (.kwElse, "ELSE"), (.kwFalse, "FALSE"), (.kwFun, "FUN"), (.kwFor, "FOR"), (.kwIf, "IF"),
    (.kwNil, "NIL"), (.kwOr, "OR"), (.kwNot, "NOT"), (.kwPrint, "PRINT"),
    (.kwReturn, "RETURN"), (.kwSuper, "SUPER"), (.kwThis, "THIS"), (.kwTrue, "TRUE"),
    (.kwVar, "VAR"), (.kwWhile, "WHILE"), (.kwLet, "LET"), (.eof, "EOF")]

def name (kind : TokenKind) : Bytes :=
  match kind with
  | .unnamed code => utf8 "TokenKind(" ++ Bytes.ofInt code ++ utf8 ")"
  | _ => utf8 ((table.lookup kind).getD "")

def ofName? (name : String) : Option TokenKind :=
  (table.find? (·.2 == name)).map (·.1)

def ofCode (code : Int) : TokenKind :=
  match code with
  | .ofNat n => (table[n]?.map (·.1)).getD (.unnamed code)
  | .negSucc _ => .unnamed code

def keywords : List (Bytes × TokenKind) :=
  [(utf8 "and", .kwAnd), (utf8 "class", .kwClass), (utf8 "else", .kwElse),
    (utf8 "false", .kwFalse), (utf8 "fun", .kwFun), (utf8 "for", .kwFor), (utf8 "if", .kwIf),
    (utf8 "nil", .kwNil), (utf8 "or", .kwOr), (utf8 "not", .kwNot), (utf8 "print", .kwPrint),
    (utf8 "return", .kwReturn), (utf8 "super", .kwSuper), (utf8 "this", .kwThis),
    (utf8 "true", .kwTrue), (utf8 "var", .kwVar), (utf8 "while", .kwWhile), (utf8 "let", .kwLet)]

def ofWord (word : Bytes) : TokenKind := (keywords.lookup word).getD .identifier

def hasLiteral : TokenKind → Bool
  | .string | .number => true
  | _ => false

end TokenKind

/-- A lexical unit: its category, the bytes that spell it, the value of a literal, and the line
it ends on. -/
structure Token where
  kind : TokenKind
  lexeme : Bytes
  literal : Value := .null
  line : Int

namespace Token

/-- The mark of the end of a text that ends on `line`. -/
def endOfText (line : Int) : Token := { kind := .eof, lexeme := [], line }

def isEnd (t : Token) : Bool := t.kind == .eof

def display (t : Token) : Bytes :=
  let head := t.kind.name ++ [Bytes.space] ++ t.lexeme
  if t.kind.hasLiteral then head ++ [Bytes.space] ++ t.literal.display else head

def equal (t u : Token) : Bool :=
  t.kind == u.kind && t.lexeme == u.lexeme && t.line == u.line && t.literal.equal u.literal

end Token

end Scribe
