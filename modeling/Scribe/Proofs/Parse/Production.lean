import Mathlib
import Scribe.Tree.Parse

/-!
# Runs of productions

What a run of a production can do to the cursor it starts from. Runs are observed at the cursor
they reach, so that success and failure are treated alike. The last section is an induction over
the whole expression grammar: a property of runs that the primitive steps have and that sequences
keep is a property of every expression.
-/

namespace Scribe

namespace Parse

/-- How a production ends: with a result or a fault, and with the cursor it leaves behind. -/
abbrev Run (α : Type) := EStateM.Result Fault Cursor α

/-- The cursor that a run reaches, whether it succeeds or gives up. -/
def reached : Run α → Cursor
  | .ok _ c => c
  | .error _ c => c

@[simp] theorem reached_ok (a : α) (c : Cursor) : reached (.ok a c) = c := rfl

@[simp] theorem reached_error (e : Fault) (c : Cursor) :
    reached (.error e c : Run α) = c := rfl

/-! ## Sequences and primitive steps -/

theorem bind_of_ok {p : Production α} {f : α → Production β} {c c' : Cursor} {a : α}
    (h : p c = .ok a c') : (p >>= f) c = f a c' := by
  simp only [bind, EStateM.bind, h]

theorem bind_of_error {p : Production α} {f : α → Production β} {c c' : Cursor} {e : Fault}
    (h : p c = .error e c') : (p >>= f) c = .error e c' := by
  simp only [bind, EStateM.bind, h]

theorem bind_eq_ok {p : Production α} {f : α → Production β} {c c' : Cursor} {b : β} :
    (p >>= f) c = .ok b c' ↔ ∃ a d, p c = .ok a d ∧ f a d = .ok b c' := by
  cases h : p c with
  | ok a d =>
      rw [bind_of_ok h]
      constructor
      · intro hf
        exact ⟨a, d, rfl, hf⟩
      · rintro ⟨a', d', h', hf⟩
        cases h'
        exact hf
  | error e d => simp [bind_of_error h]

@[simp] theorem peek_bind (f : Token → Production α) (c : Cursor) :
    (peek >>= f) c = f c.peek c := rfl

@[simp] theorem advance_bind (f : Unit → Production α) (c : Cursor) :
    (advance >>= f) c = f () { c with rest := c.rest.tail } := rfl

@[simp] theorem tokensLeft_bind (f : List Token → Production α) (c : Cursor) :
    (tokensLeft >>= f) c = f c.rest c := rfl

@[simp] theorem pure_apply (a : α) (c : Cursor) : (pure a : Production α) c = .ok a c := rfl

theorem Cursor.peek_of_cons {c : Cursor} {t : Token} {rest : List Token}
    (h : c.rest = t :: rest) : c.peek = t := by
  simp [Cursor.peek, h]

theorem Cursor.peek_of_nil {c : Cursor} (h : c.rest = []) : c.peek = c.finish := by
  simp [Cursor.peek, h]

theorem accept_of_cons (kinds : TokenKind → Bool) {c : Cursor} {t : Token} {rest : List Token}
    (h : c.rest = t :: rest) :
    accept kinds c =
      if kinds t.kind then .ok (some t) { c with rest } else .ok none c := by
  simp [accept, h]

theorem accept_of_nil (kinds : TokenKind → Bool) {c : Cursor} (h : c.rest = []) :
    accept kinds c = .ok none c := by
  simp [accept, h]

/-- A token is accepted exactly when it stands next and is of the right category. -/
theorem accept_cases (kinds : TokenKind → Bool) (c : Cursor) :
    (∃ t rest, c.rest = t :: rest ∧ kinds t.kind = true ∧
      accept kinds c = .ok (some t) { c with rest }) ∨
    ((∀ t ∈ c.rest.head?, kinds t.kind = false) ∧ accept kinds c = .ok none c) := by
  cases h : c.rest with
  | nil => exact .inr ⟨by simp, accept_of_nil kinds h⟩
  | cons t rest =>
      have hacc := accept_of_cons kinds h
      cases hk : kinds t.kind with
      | true =>
          rw [hk] at hacc
          exact .inl ⟨t, rest, rfl, hk, hacc⟩
      | false =>
          rw [hk] at hacc
          exact .inr ⟨by simpa using hk, hacc⟩

theorem expect_of_cons (kind : TokenKind) (cause : SyntaxCause) {c : Cursor} {t : Token}
    {rest : List Token} (h : c.rest = t :: rest) :
    expect kind cause c =
      if t.kind = kind then .ok t { c with rest }
      else .error (.failed (Diagnostic.syntactic t cause)) c := by
  simp [expect, h]

theorem expect_of_nil (kind : TokenKind) (cause : SyntaxCause) {c : Cursor} (h : c.rest = []) :
    expect kind cause c = .error (.failed (Diagnostic.syntactic c.finish cause)) c := by
  simp [expect, h]

theorem expect_eq_ok {kind : TokenKind} {cause : SyntaxCause} {c c' : Cursor} {t : Token} :
    expect kind cause c = .ok t c' ↔
      ∃ rest, c.rest = t :: rest ∧ t.kind = kind ∧ c' = { c with rest } := by
  cases h : c.rest with
  | nil => simp [expect_of_nil _ _ h]
  | cons u rest =>
      rw [expect_of_cons _ _ h]
      by_cases hk : u.kind = kind
      · simp only [hk, if_true, EStateM.Result.ok.injEq, List.cons.injEq]
        constructor
        · rintro ⟨rfl, rfl⟩
          exact ⟨rest, ⟨rfl, rfl⟩, hk, rfl⟩
        · rintro ⟨rest', ⟨rfl, rfl⟩, -, rfl⟩
          exact ⟨rfl, rfl⟩
      · simp only [hk, if_false, reduceCtorEq, List.cons.injEq, false_iff]
        rintro ⟨rest', ⟨rfl, -⟩, hk', -⟩
        exact hk hk'

/-! ## Expressions by their first token -/

inductive Opening where
  | sign
  | constant (v : Value)
  | name
  | group
  | array
  | other

def opening (t : Token) : Opening :=
  match t.kind with
  | .bang | .minus => .sign
  | .kwFalse => .constant (.boolean false)
  | .kwTrue => .constant (.boolean true)
  | .kwNil => .constant .null
  | .number | .string => .constant t.literal
  | .identifier => .name
  | .leftParen => .group
  | .leftBracket => .array
  | _ => .other

/-- Behind a prefix operator. -/
def prefixed (n : Nat) (op : Token) : Production Expr :=
  match n with
  | 0 => fail .expressionTooDeep
  | m + 1 => do
      let e ← operand m
      pure (.unary op e)

/-- Behind an opening parenthesis. -/
def grouped (n : Nat) : Production Expr := do
  let e ← expression n
  let _ ← expect .rightParen .expectParenAfterExpression
  pure e

def elements (n : Nat) (bracket : Token) : Production (List Expr) := do
  let ts ← tokensLeft
  commaSeparated (expression n) (bracket :: ts) []

/-- Behind an opening bracket. -/
def listed (n : Nat) (bracket : Token) : Production Expr := do
  let next ← peek
  if next.kind == .rightBracket then do
    advance
    pure (.array bracket [])
  else do
    let elems ← elements n bracket
    let _ ← expect .rightBracket .expectBracketAfterArray
    pure (.array bracket elems)

/-- An operand and the operators of the given tiers behind it. -/
def climb (tiers : List Tier) (n : Nat) : Production Expr := do
  let first ← operand n
  chains tiers n first

theorem opening_of_semicolon {t : Token} (h : t.kind = .semicolon) : opening t = .other := by
  simp [opening, h]

theorem opening_of_end {t : Token} (h : t.isEnd) : opening t = .other := by
  have hk : t.kind = .eof := by simpa [Token.isEnd] using h
  simp [opening, hk]

/-- What follows the first token of an operand. -/
def operandBehind (n : Nat) (t : Token) : Opening → Production Expr
  | .sign => advance >>= fun _ => prefixed n t
  | .constant v => advance >>= fun _ => pure (.literal v t.line)
  | .name => advance >>= fun _ => pure (.reference t)
  | .group => advance >>= fun _ => grouped n
  | .array => advance >>= fun _ => listed n t
  | .other => fail .expectExpression

theorem operand_eq (n : Nat) : operand n = peek >>= fun t => operandBehind n t (opening t) := by
  rw [operand]
  congr 1
  funext t
  cases hk : t.kind <;> simp only [opening, hk] <;> rfl

theorem operand_of_cons (n : Nat) {c : Cursor} {t : Token} {rest : List Token}
    (h : c.rest = t :: rest) :
    operand n c =
      match opening t with
      | .sign => prefixed n t { c with rest }
      | .constant v => .ok (.literal v t.line) { c with rest }
      | .name => .ok (.reference t) { c with rest }
      | .group => grouped n { c with rest }
      | .array => listed n t { c with rest }
      | .other => .error (.failed (Diagnostic.syntactic t .expectExpression)) c := by
  rw [operand_eq, peek_bind, Cursor.peek_of_cons h]
  cases opening t <;>
    simp only [operandBehind, advance_bind, h, List.tail_cons, pure_apply, fail,
      Cursor.peek_of_cons h]

theorem operand_of_nil (n : Nat) {c : Cursor} (h : c.rest = []) (hend : c.finish.isEnd) :
    operand n c = .error (.failed (Diagnostic.syntactic c.finish .expectExpression)) c := by
  rw [operand_eq, peek_bind, Cursor.peek_of_nil h, opening_of_end hend]
  simp only [operandBehind, fail, Cursor.peek_of_nil h]

def joined (tier : Tier) (n : Nat) (left : Expr) : Option Token → Production Expr
  | none => pure left
  | some op =>
      match n with
      | 0 => fail .expressionTooDeep
      | m + 1 => do
          let right ← climb tier.tighter m
          chain tier m (.binary left op right)

theorem chain_eq (tier : Tier) (n : Nat) (left : Expr) :
    chain tier n left = accept tier.operators >>= joined tier n left := by
  rw [chain]
  congr 1
  funext found
  cases found with
  | none => rfl
  | some op =>
      cases n with
      | zero => rfl
      | succ m => simp only [joined, climb, bind_assoc]

theorem chains_nil (n : Nat) (left : Expr) : chains [] n left = pure left := by
  rw [chains]

theorem chains_cons (tier : Tier) (looser : List Tier) (n : Nat) (left : Expr) :
    chains (tier :: looser) n left = chain tier n left >>= chains looser n := by
  rw [chains]

theorem expression_zero : expression 0 = fail .expressionTooDeep := by
  rw [expression]

/-- Behind the left side of what may be an assignment. -/
def assigned (n : Nat) (target : Expr) : Production Expr := do
  match ← accept (· == .equal) with
  | none => pure target
  | some equals => do
      let value ← expression n
      match target with
      | .reference name => pure (.assign name value)
      | _ => do
          report (Diagnostic.syntactic equals .invalidAssignmentTarget)
          pure target

theorem expression_succ (n : Nat) : expression (n + 1) = climb Tier.all n >>= assigned n := by
  rw [expression]
  simp only [climb, bind_assoc]
  rfl

/-! ## Statements by their first token -/

/-- Behind `print`. -/
def printed (n : Nat) (keyword : Token) : Production Stmt := do
  let e ← expression n
  let _ ← expect .semicolon .expectSemicolonAfterValue
  pure (.print keyword e)

def items (n : Nat) : Production (List Stmt) := do
  let ts ← tokensLeft
  blockItems (inner (declarationBody n (statement n))) ts []

theorem inner_of_ok {body : Production Stmt} {c c' : Cursor} {s : Stmt} (h : body c = .ok s c') :
    inner body c = .ok (some s) c' := by
  simp only [inner, h]

theorem inner_of_failed {body : Production Stmt} {c c' : Cursor} {d : Diagnostic}
    (h : body c = .error (.failed d) c') :
    inner body c = .ok none (synchronize (c'.report d)) := by
  simp only [inner, h]

theorem inner_of_tooDeep {body : Production Stmt} {c c' : Cursor} {d : Diagnostic}
    (h : body c = .error (.tooDeep d) c') : inner body c = .error .unwinding (c'.report d) := by
  simp only [inner, h]

theorem inner_of_unwinding {body : Production Stmt} {c c' : Cursor}
    (h : body c = .error .unwinding c') : inner body c = .error .unwinding c' := by
  simp only [inner, h]

def closes (t : Token) : Bool := t.kind == .rightBrace || t.isEnd

/-- Behind a declaration of a block. -/
def kept (item : Production (Option Stmt)) (budget : List Token) (done : List Stmt) :
    Option Stmt → Production (List Stmt)
  | some s => blockItems item budget (s :: done)
  | none => blockItems item budget done

theorem blockItems_cons (item : Production (Option Stmt)) (b : Token) (budget : List Token)
    (done : List Stmt) :
    blockItems item (b :: budget) done = peek >>= fun t =>
      if closes t then pure done.reverse else item >>= kept item budget done := rfl

/-- Behind an opening brace. -/
def enclosed (n : Nat) (brace : Token) : Production Stmt := do
  let stmts ← items n
  let _ ← expect .rightBrace .expectBraceAfterBlock
  pure (.block brace stmts)

def otherwise (n : Nat) (keyword : Token) (cond : Expr) (yes : Stmt) : Production Stmt := do
  match ← accept (· == .kwElse) with
  | some _ => do
      let no ← statement n
      pure (.branch keyword cond yes no)
  | none => pure (.branch keyword cond yes .absent)

/-- Behind `if`. -/
def branched (n : Nat) (keyword : Token) : Production Stmt := do
  let _ ← expect .leftParen .expectParenAfterIf
  let cond ← expression n
  let _ ← expect .rightParen .expectParenAfterCondition
  let yes ← statement n
  otherwise n keyword cond yes

def evaluated (n : Nat) : Production Stmt := do
  let e ← expression n
  let _ ← expect .semicolon .expectSemicolonAfterExpression
  pure (.expression e)

def statementBehind (n : Nat) (t : Token) : Production Stmt :=
  match t.kind with
  | .kwPrint => advance >>= fun _ => printed n t
  | .leftBrace => advance >>= fun _ => enclosed n t
  | .kwIf => advance >>= fun _ => branched n t
  | _ => evaluated n

theorem statement_succ (n : Nat) : statement (n + 1) = peek >>= statementBehind n := rfl

theorem statement_of_cons (n : Nat) {c : Cursor} {t : Token} {rest : List Token}
    (h : c.rest = t :: rest) :
    statement (n + 1) c =
      match t.kind with
      | .kwPrint => printed n t { c with rest }
      | .leftBrace => enclosed n t { c with rest }
      | .kwIf => branched n t { c with rest }
      | _ => evaluated n c := by
  rw [statement_succ, peek_bind, Cursor.peek_of_cons h]
  unfold statementBehind
  cases t.kind <;> simp only [advance_bind, h, List.tail_cons]

theorem statement_of_nil (n : Nat) {c : Cursor} (h : c.rest = []) (hend : c.finish.isEnd) :
    statement (n + 1) c = evaluated n c := by
  have hk : c.finish.kind = .eof := by simpa [Token.isEnd] using hend
  rw [statement_succ, peek_bind, Cursor.peek_of_nil h]
  simp only [statementBehind, hk]

/-- Behind the name of a variable. -/
def initialized (n : Nat) (name : Token) : Production Stmt := do
  match ← accept (· == .equal) with
  | some _ => do
      let init ← expression n
      let _ ← expect .semicolon .expectSemicolonAfterDeclaration
      pure (.declare name init)
  | none => do
      let _ ← expect .semicolon .expectSemicolonAfterDeclaration
      pure (.declare name .absent)

theorem declared_eq (n : Nat) :
    declared n = expect .identifier .expectVariableName >>= initialized n := rfl

def declaration (n : Nat) : Production Stmt := declarationBody n (statement n)

def introduces (kind : TokenKind) : Bool := kind == .kwLet || kind == .kwVar

theorem declaration_of_cons (n : Nat) {c : Cursor} {t : Token} {rest : List Token}
    (h : c.rest = t :: rest) :
    declaration n c = if introduces t.kind then declared n { c with rest } else statement n c := by
  simp only [declaration, declarationBody]
  cases hk : introduces t.kind with
  | true =>
      have hacc : accept introduces c = .ok (some t) { c with rest } := by
        rw [accept_of_cons _ h, hk]
        rfl
      exact bind_of_ok hacc
  | false =>
      have hacc : accept introduces c = .ok none c := by
        rw [accept_of_cons _ h, hk]
        rfl
      exact bind_of_ok hacc

end Parse

end Scribe
