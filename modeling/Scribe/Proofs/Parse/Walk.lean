import Scribe.Machine.Basic
import Scribe.Proofs.Parse.Grammar

/-!
# Parsing by place

The parser once more, as it walks over the tokens: it keeps its place in the list, the number of
levels it is in, a flag that is raised while statements that nest too deeply are abandoned, and the
reports. Levels are entered and left one by one. Nothing here says that a walk comes to an end or
stays in the list; a walk that does not is `none`. Calls of what is being defined are written
`way |>.part`.
-/

namespace Scribe

open Parse (Tier startsStatement)
open Grammar (operatorsOf)

/-- Where a parser stands, and what it has in mind. -/
structure Walker where
  place : Nat := 0
  depth : Int := 0
  /-- Whether the blocks around a statement that nests too deeply are being abandoned. -/
  unwinding : Bool := false
  reports : List Diagnostic := []

inductive Trouble where
  | found (d : Diagnostic)
  /-- Blocks are being abandoned; the cause is reported. -/
  | unwound

abbrev Steps := StateT Walker Option

/-- A part of the parser. What it does besides when it gives up is written in its steps. -/
abbrev Walk := ExceptT Trouble Steps

namespace Walk

def report (d : Diagnostic) : Walk Unit :=
  modify fun w => { w with reports := d :: w.reports }

def tell : Trouble → Walk Unit
  | .found d => report d
  | .unwound => pure ()

def unnest : Steps Unit := modify fun w => { w with depth := w.depth - 1 }

def restore (depth : Int) : Steps Unit := modify fun w => { w with depth }

end Walk

open Walk (report tell unnest restore)

/-- What is walked over, and how many levels deep. -/
structure Way where
  text : List Token
  limit : Nat

/-- The tokens with an end mark behind them, unless there is one already. -/
def ended (tokens : List Token) : List Token :=
  match tokens.getLast? with
  | none => [.endOfText 1]
  | some t => if t.isEnd then tokens else tokens ++ [.endOfText t.line]

namespace Way

/-- The way over a list of tokens. -/
def along (tokens : List Token) (setting : Int) : Way where
  text := ended tokens
  limit := limitOf setting

/-! ## Tokens -/

/-- The token at the place. There is none outside of the list. -/
def here (way : Way) : Walk Token :=
  ExceptT.mk fun w => way.text[w.place]?.map fun t => (.ok t, w)

/-- The token in front of the place. In front of the first one stands the zero of tokens. -/
def previous (way : Way) : Walk Token := ExceptT.mk fun w =>
  match w.place with
  | 0 => some (.ok { kind := .ofCode 0, lexeme := [], line := 0 }, w)
  | n + 1 => way.text[n]?.map fun t => (.ok t, w)

def atEnd (way : Way) : Walk Bool := do
  let t ← way.here
  pure t.isEnd

/-- Takes a token, but not the end mark. -/
def advance (way : Way) : Walk Token := do
  if ← way.atEnd then way.previous
  else
    modify fun w => { w with place := w.place + 1 }
    way.previous

def check (way : Way) (kind : TokenKind) : Walk Bool := do
  if ← way.atEnd then pure false
  else
    let t ← way.here
    pure (t.kind == kind)

def accept (way : Way) : List TokenKind → Walk Bool
  | [] => pure false
  | kind :: kinds => do
      if ← way.check kind then
        let _ ← way.advance
        pure true
      else way.accept kinds

def fail (way : Way) (cause : SyntaxCause) : Walk α := do
  let t ← way.here
  throw (.found (Diagnostic.syntactic t cause))

def consume (way : Way) (kind : TokenKind) (cause : SyntaxCause) : Walk Token := do
  if ← way.check kind then way.advance else way.fail cause

/-! ## Recovery -/

/-- Takes tokens up to a statement boundary: just behind a semicolon, or in front of a token that
starts a declaration or statement. -/
def skip (way : Way) : Walk Unit := do
  if ← way.atEnd then pure ()
  else
    let last ← way.previous
    if last.kind == .semicolon then pure ()
    else
      let next ← way.here
      if startsStatement next.kind then pure ()
      else
        let _ ← way.advance
        way |>.skip
partial_fixpoint

def synchronize (way : Way) : Walk Unit := do
  let _ ← way.advance
  way.skip

/-- What becomes of a declaration. One that was abandoned is reported and skipped, but if it stands
in a block that is abandoned as well, that is left to the declarations around it. -/
def settle (way : Way) : Except Trouble Stmt → Walk (Option Stmt)
  | .ok s => pure (some s)
  | .error e => do
      tell e
      let w ← get
      if w.unwinding && 0 < w.depth then pure none
      else
        modify fun w => { w with unwinding := false }
        way.synchronize
        pure none

/-! ## Levels -/

def nest (way : Way) (cause : SyntaxCause) : Walk Unit := do
  let w ← get
  if (way.limit : Int) ≤ w.depth then way.fail cause
  else set { w with depth := w.depth + 1 }

/-- Enters one level of statements; if there is none left, blocks are abandoned from now on. -/
def nestStatement (way : Way) : Walk Unit :=
  tryCatch (way.nest .statementTooDeep) fun e => do
    modify fun w => { w with unwinding := true }
    throw e

/-! ## Expressions -/

mutual

def expression (way : Way) : Walk Expr := do
  way.nest .expressionTooDeep
  (do
    let r ← (way |>.assignment).run
    unnest
    pure r : Steps (Except Trouble Expr))
partial_fixpoint

/-- `equality ("=" assignment)?`. A target that is no name is reported, and stands for the
assignment. -/
def assignment (way : Way) : Walk Expr := do
  let target ← way |>.binary .equality
  if ← way.accept [.equal] then
    let equals ← way.previous
    way.nest .expressionTooDeep
    (do
      let r ← (do
        let value ← way |>.assignment
        match target with
        | .reference name => pure (.assign name value)
        | _ => do
            report (Diagnostic.syntactic equals .invalidAssignmentTarget)
            pure target : Walk Expr).run
      unnest
      pure r : Steps (Except Trouble Expr))
  else pure target
partial_fixpoint

def below (way : Way) (tier : Tier) : Walk Expr :=
  match tier with
  | .factor => way |>.unary
  | .term => way |>.binary .factor
  | .comparison => way |>.binary .term
  | .equality => way |>.binary .comparison
partial_fixpoint

/-- The operators of one tier. The depth is given back at the end only. -/
def binary (way : Way) (tier : Tier) : Walk Expr := do
  let left ← way |>.below tier
  let w ← get
  (do
    let r ← (way |>.joins tier left).run
    restore w.depth
    pure r : Steps (Except Trouble Expr))
partial_fixpoint

/-- The operators of a tier behind `left`, each one level deeper. -/
def joins (way : Way) (tier : Tier) (left : Expr) : Walk Expr := do
  if ← way.accept (operatorsOf tier) then
    let op ← way.previous
    way.nest .expressionTooDeep
    let right ← way |>.below tier
    way |>.joins tier (.binary left op right)
  else pure left
partial_fixpoint

def unary (way : Way) : Walk Expr := do
  if ← way.accept [.bang, .minus] then
    let op ← way.previous
    way.nest .expressionTooDeep
    (do
      let r ← (do
        let operand ← way |>.unary
        pure (.unary op operand) : Walk Expr).run
      unnest
      pure r : Steps (Except Trouble Expr))
  else way |>.primary
partial_fixpoint

def primary (way : Way) : Walk Expr := do
  let t ← way.here
  if ← way.accept [.kwFalse] then pure (.literal (.boolean false) t.line)
  else if ← way.accept [.kwTrue] then pure (.literal (.boolean true) t.line)
  else if ← way.accept [.kwNil] then pure (.literal .null t.line)
  else if ← way.accept [.number, .string] then pure (.literal t.literal t.line)
  else if ← way.accept [.identifier] then pure (.reference t)
  else if ← way.accept [.leftParen] then do
    let e ← way |>.expression
    let _ ← way.consume .rightParen .expectParenAfterExpression
    pure e
  else if ← way.accept [.leftBracket] then way |>.array
  else throw (.found (Diagnostic.syntactic t .expectExpression))
partial_fixpoint

/-- Behind an opening bracket. -/
def array (way : Way) : Walk Expr := do
  let bracket ← way.previous
  let elems ← (do if ← way.check .rightBracket then pure [] else way |>.elements)
  let _ ← way.consume .rightBracket .expectBracketAfterArray
  pure (.array bracket elems)
partial_fixpoint

def elements (way : Way) : Walk (List Expr) := do
  let e ← way |>.expression
  if ← way.accept [.comma] then
    let es ← way |>.elements
    pure (e :: es)
  else pure [e]
partial_fixpoint

end

/-! ## Declarations and statements -/

/-- Behind `let` or `var`. -/
def variableDeclaration (way : Way) : Walk Stmt := do
  let name ← way.consume .identifier .expectVariableName
  let init ← (do if ← way.accept [.equal] then way.expression else pure .absent)
  let _ ← way.consume .semicolon .expectSemicolonAfterDeclaration
  pure (.declare name init)

/-- Behind `print`. -/
def printStatement (way : Way) : Walk Stmt := do
  let keyword ← way.previous
  let e ← way.expression
  let _ ← way.consume .semicolon .expectSemicolonAfterValue
  pure (.print keyword e)

def expressionStatement (way : Way) : Walk Stmt := do
  let e ← way.expression
  let _ ← way.consume .semicolon .expectSemicolonAfterExpression
  pure (.expression e)

mutual

/-- A declaration or statement, if it was not abandoned. -/
def declaration (way : Way) : Walk (Option Stmt) :=
  (do
    let r ← (do
      if ← way.accept [.kwLet, .kwVar] then way.variableDeclaration
      else way |>.statement : Walk Stmt).run
    (way.settle r).run : Steps (Except Trouble (Option Stmt)))
partial_fixpoint

def statement (way : Way) : Walk Stmt := do
  way.nestStatement
  (do
    let r ← (do
      if ← way.accept [.kwPrint] then way.printStatement
      else if ← way.accept [.leftBrace] then way |>.block
      else if ← way.accept [.kwIf] then way |>.branch
      else way.expressionStatement : Walk Stmt).run
    unnest
    pure r : Steps (Except Trouble Stmt))
partial_fixpoint

/-- Behind an opening brace. -/
def block (way : Way) : Walk Stmt := do
  let brace ← way.previous
  let stmts ← way |>.items
  let _ ← way.consume .rightBrace .expectBraceAfterBlock
  pure (.block brace stmts)
partial_fixpoint

def items (way : Way) : Walk (List Stmt) := do
  if ← way.check .rightBrace then pure []
  else if ← way.atEnd then pure []
  else
    let s ← way |>.declaration
    let w ← get
    if w.unwinding then throw .unwound
    else
      let ss ← way |>.items
      pure (s.toList ++ ss)
partial_fixpoint

/-- Behind `if`. -/
def branch (way : Way) : Walk Stmt := do
  let keyword ← way.previous
  let _ ← way.consume .leftParen .expectParenAfterIf
  let cond ← way.expression
  let _ ← way.consume .rightParen .expectParenAfterCondition
  let yes ← way |>.statement
  let no ← (do if ← way.accept [.kwElse] then way |>.statement else pure .absent)
  pure (.branch keyword cond yes no)
partial_fixpoint

end

def program (way : Way) : Walk (List Stmt) := do
  if ← way.atEnd then pure []
  else
    let s ← way.declaration
    let ss ← way |>.program
    pure (s.toList ++ ss)
partial_fixpoint

end Way

end Scribe
