import Scribe.Token.Basic

/-!
# Diagnostics

Recoverable errors of a script, each tied to a line. A diagnostic holds its cause; the wording
is given here alone.
-/

namespace Scribe

inductive Phase where
  | lexical
  | syntactic
  | runtime
  | unnamed (code : Int)
  deriving DecidableEq, Repr

namespace Phase

def name : Phase → String
  | .lexical => "lexical"
  | .syntactic => "syntax"
  | .runtime => "runtime"
  | .unnamed _ => "unknown"

def ofCode : Int → Phase
  | 0 => .lexical
  | 1 => .syntactic
  | 2 => .runtime
  | code => .unnamed code

end Phase

inductive LexicalCause where
  | unexpectedCharacter (c : Char)
  | notDoubled (c : Char)
  | unterminatedString
  deriving DecidableEq, Repr

inductive SyntaxCause where
  | expectVariableName
  | expectSemicolonAfterDeclaration
  | expectSemicolonAfterValue
  | expectSemicolonAfterExpression
  | expectBraceAfterBlock
  | expectParenAfterIf
  | expectParenAfterCondition
  | expectParenAfterExpression
  | expectBracketAfterArray
  | expectExpression
  | invalidAssignmentTarget
  | statementTooDeep
  | expressionTooDeep
  deriving DecidableEq, Repr

inductive RuntimeCause where
  | missingStatement
  | missingExpression
  | nestingTooDeep
  | undefinedVariable (name : Bytes)
  | operandNotNumber (op : TokenKind)
  | operandsNotNumbers (op : TokenKind)
  | operandsNotAddable
  | unknownUnary (op : Bytes)
  | unknownBinary (op : Bytes)
  | outputFailed (reason : Bytes)
  deriving DecidableEq, Repr

namespace LexicalCause

def message : LexicalCause → Bytes
  | .unexpectedCharacter c => utf8 "Unexpected character '" ++ utf8Char c ++ utf8 "'."
  | .notDoubled c =>
      utf8 "Expect '" ++ utf8Char c ++ utf8Char c ++ utf8 "', found '" ++ utf8Char c ++ utf8 "'."
  | .unterminatedString => utf8 "Unterminated string."

end LexicalCause

namespace SyntaxCause

def message : SyntaxCause → String
  | .expectVariableName => "Expect variable name."
  | .expectSemicolonAfterDeclaration => "Expect ';' after variable declaration."
  | .expectSemicolonAfterValue => "Expect ';' after value."
  | .expectSemicolonAfterExpression => "Expect ';' after expression."
  | .expectBraceAfterBlock => "Expect '\x7d' after block."
  | .expectParenAfterIf => "Expect '(' after 'if'."
  | .expectParenAfterCondition => "Expect ')' after if condition."
  | .expectParenAfterExpression => "Expect ')' after expression."
  | .expectBracketAfterArray => "Expect ']' after array literal."
  | .expectExpression => "Expect expression."
  | .invalidAssignmentTarget => "Invalid assignment target."
  | .statementTooDeep => "Statement nesting too deep."
  | .expressionTooDeep => "Expression nesting too deep."

end SyntaxCause

namespace RuntimeCause

def message : RuntimeCause → Bytes
  | .missingStatement => utf8 "Missing statement."
  | .missingExpression => utf8 "Missing expression."
  | .nestingTooDeep => utf8 "Nesting too deep."
  | .undefinedVariable name => utf8 "Undefined variable '" ++ name ++ utf8 "'."
  | .operandNotNumber op => op.name ++ utf8 " must be followed by a number."
  | .operandsNotNumbers op => op.name ++ utf8 " must have number operands."
  | .operandsNotAddable => utf8 "Operands must be two numbers or two strings."
  | .unknownUnary op => utf8 "Unknown unary operator '" ++ op ++ utf8 "'."
  | .unknownBinary op => utf8 "Unknown binary operator '" ++ op ++ utf8 "'."
  | .outputFailed reason => utf8 "Cannot write output: " ++ reason

end RuntimeCause

/-- The cause of a diagnostic; `told` is one that somebody else worded. -/
inductive Cause where
  | lexical (cause : LexicalCause)
  | syntactic (cause : SyntaxCause)
  | runtime (cause : RuntimeCause)
  | told (message : Bytes)
  deriving DecidableEq, Repr

def Cause.message : Cause → Bytes
  | .lexical cause => cause.message
  | .syntactic cause => utf8 cause.message
  | .runtime cause => cause.message
  | .told message => message

structure Diagnostic where
  phase : Phase
  line : Int
  /-- The place in the line: behind a blank, or empty. -/
  place : Bytes
  cause : Cause
  deriving DecidableEq, Repr

namespace Diagnostic

def lexical (line : Int) (cause : LexicalCause) : Diagnostic :=
  ⟨.lexical, line, [], .lexical cause⟩

/-- The place of a token: the end of the text, or the token's own spelling. -/
def placeOf (t : Token) : Bytes :=
  if t.isEnd then utf8 " at end"
  else if t.lexeme.isEmpty then []
  else utf8 " at '" ++ t.lexeme ++ utf8 "'"

def syntactic (t : Token) (cause : SyntaxCause) : Diagnostic :=
  ⟨.syntactic, t.line, placeOf t, .syntactic cause⟩

def runtime (line : Int) (cause : RuntimeCause) : Diagnostic :=
  ⟨.runtime, line, [], .runtime cause⟩

def message (d : Diagnostic) : Bytes := d.cause.message

/-- The diagnostic as one line. A line number that is not positive is left out. -/
def text (d : Diagnostic) : Bytes :=
  (if 0 < d.line then utf8 "[line " ++ Bytes.ofInt d.line ++ utf8 "] " else []) ++
    utf8 d.phase.name ++ utf8 " error" ++ d.place ++ utf8 ": " ++ d.message

def count (phase : Phase) (ds : List Diagnostic) : Nat := ds.countP (·.phase == phase)

def textAll (ds : List Diagnostic) : Bytes := Bytes.join [Bytes.lineFeed] (ds.map text)

end Diagnostic

end Scribe
