import Scribe.Diagnostic
import Scribe.Tree.Basic

/-!
# Parsing

Recursive descent over the tokens up to the end mark. Each production is given the number of
levels of nesting that are left, and recursion follows that number: entering a statement, an
expression, a prefix operator, an assignment or the right side of an operator uses one level.

An error abandons the declaration it occurs in. The parser then skips to the next statement
boundary and goes on; when statements nest too deeply, all enclosing blocks are abandoned at
once, and the excess is reported a single time.
-/

namespace Scribe

namespace Parse

/-- What is left to read, the end mark, and the diagnostics so far, last first. -/
structure Cursor where
  rest : List Token
  finish : Token
  reports : List Diagnostic

inductive Fault where
  /-- The declaration is abandoned; the diagnostic is yet to be reported. -/
  | failed (d : Diagnostic)
  /-- Statements nest too deeply; the diagnostic is yet to be reported. -/
  | tooDeep (d : Diagnostic)
  /-- Statements nest too deeply; the diagnostic is reported. -/
  | unwinding

/-- A production reads from a cursor. When it gives up, the cursor stands where it stopped. -/
abbrev Production (α : Type) := EStateM Fault Cursor α

namespace Cursor

def peek (c : Cursor) : Token := c.rest.headD c.finish

def report (c : Cursor) (d : Diagnostic) : Cursor := { c with reports := d :: c.reports }

end Cursor

def peek : Production Token := fun c => .ok c.peek c

def advance : Production Unit := fun c => .ok () { c with rest := c.rest.tail }

def accept (kinds : TokenKind → Bool) : Production (Option Token) := fun c =>
  match c.rest with
  | t :: rest => if kinds t.kind then .ok (some t) { c with rest } else .ok none c
  | [] => .ok none c

def fail (cause : SyntaxCause) : Production α := fun c =>
  .error (.failed (Diagnostic.syntactic c.peek cause)) c

def report (d : Diagnostic) : Production Unit := fun c => .ok () (c.report d)

def expect (kind : TokenKind) (cause : SyntaxCause) : Production Token := fun c =>
  match c.rest with
  | t :: rest =>
      if t.kind == kind then .ok t { c with rest }
      else .error (.failed (Diagnostic.syntactic t cause)) c
  | [] => .error (.failed (Diagnostic.syntactic c.finish cause)) c

inductive Tier where
  | factor
  | term
  | comparison
  | equality
  deriving DecidableEq, Repr

namespace Tier

def operators : Tier → TokenKind → Bool
  | .factor, kind => kind == .slash || kind == .star
  | .term, kind => kind == .minus || kind == .plus
  | .comparison, kind =>
      kind == .greater || kind == .greaterEqual || kind == .less || kind == .lessEqual
  | .equality, kind => kind == .bangEqual || kind == .equalEqual

def tighter : Tier → List Tier
  | .factor => []
  | .term => [.factor]
  | .comparison => [.factor, .term]
  | .equality => [.factor, .term, .comparison]

def all : List Tier := [.factor, .term, .comparison, .equality]

end Tier

/-- One item, and one more behind each comma. An item that does not fail takes at least one token,
so a `budget` of one more than there are tokens suffices. -/
def commaSeparated (item : Production α) :
    (budget : List Token) → (done : List α) → Production (List α)
  | [], done => pure done.reverse
  | _ :: budget, done => do
      let a ← item
      match ← accept (· == .comma) with
      | some _ => commaSeparated item budget (a :: done)
      | none => pure (a :: done).reverse

def tokensLeft : Production (List Token) := fun c => .ok c.rest c

mutual

/-- An expression, with `levels` levels of nesting left. An assignment to something else than a
name is reported, and its left side stands for it. -/
def expression : (levels : Nat) → Production Expr
  | 0 => fail .expressionTooDeep
  | n + 1 => do
      let first ← operand n
      let target ← chains Tier.all n first
      match ← accept (· == .equal) with
      | none => pure target
      | some equals => do
          let value ← expression n
          match target with
          | .reference name => pure (.assign name value)
          | _ => do
              report (Diagnostic.syntactic equals .invalidAssignmentTarget)
              pure target
termination_by n => (n, 0)

def operand (n : Nat) : Production Expr := do
  let t ← peek
  match t.kind with
  | .bang | .minus => do
      advance
      match n with
      | 0 => fail .expressionTooDeep
      | m + 1 => do
          let e ← operand m
          pure (.unary t e)
  | .kwFalse => do advance; pure (.literal (.boolean false) t.line)
  | .kwTrue => do advance; pure (.literal (.boolean true) t.line)
  | .kwNil => do advance; pure (.literal .null t.line)
  | .number | .string => do advance; pure (.literal t.literal t.line)
  | .identifier => do advance; pure (.reference t)
  | .leftParen => do
      advance
      let e ← expression n
      let _ ← expect .rightParen .expectParenAfterExpression
      pure e
  | .leftBracket => do
      advance
      let next ← peek
      if next.kind == .rightBracket then do
        advance
        pure (.array t [])
      else do
        let elems ← commaSeparated (expression n) (t :: (← tokensLeft)) []
        let _ ← expect .rightBracket .expectBracketAfterArray
        pure (.array t elems)
  | _ => fail .expectExpression
termination_by (n, 1)

/-- The operators of one tier behind `left`, each with its right side. -/
def chain (tier : Tier) (n : Nat) (left : Expr) : Production Expr := do
  match ← accept tier.operators with
  | none => pure left
  | some op =>
      match n with
      | 0 => fail .expressionTooDeep
      | m + 1 => do
          let first ← operand m
          let right ← chains tier.tighter m first
          chain tier m (.binary left op right)
termination_by (n, 0)

/-- The operators of several tiers behind `left`, tightest first. -/
def chains (tiers : List Tier) (n : Nat) (left : Expr) : Production Expr :=
  match tiers with
  | [] => pure left
  | tier :: looser => do
      let e ← chain tier n left
      chains looser n e
termination_by (n, tiers.length + 1)

end

/-- `name ("=" expression)? ";"`, behind the keyword. -/
def declared (n : Nat) : Production Stmt := do
  let name ← expect .identifier .expectVariableName
  match ← accept (· == .equal) with
  | some _ => do
      let init ← expression n
      let _ ← expect .semicolon .expectSemicolonAfterDeclaration
      pure (.declare name init)
  | none => do
      let _ ← expect .semicolon .expectSemicolonAfterDeclaration
      pure (.declare name .absent)

def startsStatement : TokenKind → Bool
  | .kwLet | .kwVar | .kwPrint | .kwIf | .leftBrace => true
  | _ => false

/-- The tokens from the next statement boundary on: just past a semicolon, or before a token that
starts a declaration or statement. `last` is the token skipped last. -/
def boundaryAfter (last : Token) : List Token → List Token
  | [] => []
  | t :: rest =>
      if last.kind == .semicolon || startsStatement t.kind then t :: rest
      else boundaryAfter t rest

/-- Skips at least one token, then to the next statement boundary. -/
def synchronize (c : Cursor) : Cursor :=
  match c.rest with
  | [] => c
  | t :: rest => { c with rest := boundaryAfter t rest }

def declarationBody (n : Nat) (statement : Production Stmt) : Production Stmt := do
  match ← accept (fun kind => kind == .kwLet || kind == .kwVar) with
  | some _ => declared n
  | none => statement

/-- A declaration inside a block: an error in it is reported and skipped, excess nesting abandons
the block. -/
def inner (body : Production Stmt) : Production (Option Stmt) := fun c =>
  match body c with
  | .ok s c => .ok (some s) c
  | .error (.failed d) c => .ok none (synchronize (c.report d))
  | .error (.tooDeep d) c => .error .unwinding (c.report d)
  | .error .unwinding c => .error .unwinding c

/-- The declarations of a block up to its brace. Each takes at least one token, so a `budget` of
all tokens suffices. -/
def blockItems (item : Production (Option Stmt)) :
    (budget : List Token) → (done : List Stmt) → Production (List Stmt)
  | [], done => pure done.reverse
  | _ :: budget, done => do
      let t ← peek
      if t.kind == .rightBrace || t.isEnd then pure done.reverse
      else
        match ← item with
        | some s => blockItems item budget (s :: done)
        | none => blockItems item budget done

/-- A statement, with `levels` levels of nesting left. -/
def statement : (levels : Nat) → Production Stmt
  | 0 => fun c => .error (.tooDeep (Diagnostic.syntactic c.peek .statementTooDeep)) c
  | n + 1 => do
      let t ← peek
      match t.kind with
      | .kwPrint => do
          advance
          let e ← expression n
          let _ ← expect .semicolon .expectSemicolonAfterValue
          pure (.print t e)
      | .leftBrace => do
          advance
          let stmts ← blockItems (inner (declarationBody n (statement n))) (← tokensLeft) []
          let _ ← expect .rightBrace .expectBraceAfterBlock
          pure (.block t stmts)
      | .kwIf => do
          advance
          let _ ← expect .leftParen .expectParenAfterIf
          let cond ← expression n
          let _ ← expect .rightParen .expectParenAfterCondition
          let yes ← statement n
          match ← accept (· == .kwElse) with
          | some _ => do
              let no ← statement n
              pure (.branch t cond yes no)
          | none => pure (.branch t cond yes .absent)
      | _ => do
          let e ← expression n
          let _ ← expect .semicolon .expectSemicolonAfterExpression
          pure (.expression e)

/-- One declaration of the whole text: an error in it, or excess nesting, is reported and
skipped. -/
def outermost (limit : Nat) (c : Cursor) : Option Stmt × Cursor :=
  match declarationBody limit (statement limit) c with
  | .ok s c => (some s, c)
  | .error (.failed d) c => (none, synchronize (c.report d))
  | .error (.tooDeep d) c => (none, synchronize (c.report d))
  | .error .unwinding c => (none, synchronize c)

/-- All declarations up to the end mark. `fuel` bounds their number; each takes at least one
token. -/
def declarations (limit : Nat) : (fuel : Nat) → (done : List Stmt) → Cursor → List Stmt × Cursor
  | 0, done, c => (done.reverse, c)
  | fuel + 1, done, c =>
      if c.rest.isEmpty then (done.reverse, c)
      else
        match outermost limit c with
        | (some s, c) => declarations limit fuel (s :: done) c
        | (none, c) => declarations limit fuel done c

/-- What parsing produces: one statement per declaration that parsed, and the diagnostics in
order. -/
structure Result where
  stmts : List Stmt
  reports : List Diagnostic

/-- The end mark of a token list: its own, or one on the line of its last token. -/
def endMark (tokens : List Token) : Token :=
  (tokens.find? Token.isEnd).getD (Token.endOfText ((tokens.getLast?.map Token.line).getD 1))

def start (tokens : List Token) : Cursor :=
  ⟨tokens.takeWhile (!Token.isEnd ·), endMark tokens, []⟩

end Parse

def defaultLimit : Nat := 10000

/-- The statements of a token list whose nesting is limited by `limit`. Tokens behind an end mark
are not read. -/
def parse (tokens : List Token) (limit : Nat) : Parse.Result :=
  let c := Parse.start tokens
  let (stmts, c) := Parse.declarations limit c.rest.length [] c
  ⟨stmts, c.reports.reverse⟩

end Scribe
