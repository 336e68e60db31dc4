import Scribe.Proofs.Parse.Grammar
import Scribe.Proofs.Parse.Progress

/-!
# Trees that parsing makes

A derivation can be asked for only if nothing was reported. The tree of a statement that has been
kept has the shape of the grammar in any case, also next to an error, and it consists of tokens that
were read. What is reported stands at such a token, too.
-/

namespace Scribe

open Grammar

/-- An expression of the shape of the grammar, made of tokens with the property `T`. -/
inductive Expr.MadeOf (T : Token → Prop) : Expr → Prop where
  | constant {t : Token} {v : Value} (ht : T t) (h : Denotes t v) : MadeOf T (.literal v t.line)
  | name {t : Token} (ht : T t) (h : t.kind = .identifier) : MadeOf T (.reference t)
  | assign {t : Token} {value : Expr} (ht : T t) (h : t.kind = .identifier)
      (hvalue : MadeOf T value) : MadeOf T (.assign t value)
  | unary {op : Token} {operand : Expr} (ht : T op) (h : op.kind = .bang ∨ op.kind = .minus)
      (hoperand : MadeOf T operand) : MadeOf T (.unary op operand)
  | binary {tier : Parse.Tier} {left right : Expr} {op : Token} (hleft : MadeOf T left)
      (ht : T op) (h : op.kind ∈ operatorsOf tier) (hright : MadeOf T right) :
      MadeOf T (.binary left op right)
  | array {bracket : Token} {elems : List Expr} (ht : T bracket)
      (h : bracket.kind = .leftBracket) (helems : ∀ e ∈ elems, MadeOf T e) :
      MadeOf T (.array bracket elems)

inductive Stmt.MadeOf (T : Token → Prop) : Stmt → Prop where
  | print {t : Token} {e : Expr} (ht : T t) (h : t.kind = .kwPrint) (he : e.MadeOf T) :
      MadeOf T (.print t e)
  | expression {e : Expr} (he : e.MadeOf T) : MadeOf T (.expression e)
  | uninitialized {name : Token} (ht : T name) (h : name.kind = .identifier) :
      MadeOf T (.declare name .absent)
  | initialized {name : Token} {init : Expr} (ht : T name) (h : name.kind = .identifier)
      (hinit : init.MadeOf T) : MadeOf T (.declare name init)
  | block {brace : Token} {stmts : List Stmt} (ht : T brace) (h : brace.kind = .leftBrace)
      (hstmts : ∀ s ∈ stmts, MadeOf T s) : MadeOf T (.block brace stmts)
  | branch {t : Token} {cond : Expr} {yes : Stmt} (ht : T t) (h : t.kind = .kwIf)
      (hcond : cond.MadeOf T) (hyes : MadeOf T yes) : MadeOf T (.branch t cond yes .absent)
  | branchElse {t : Token} {cond : Expr} {yes no : Stmt} (ht : T t) (h : t.kind = .kwIf)
      (hcond : cond.MadeOf T) (hyes : MadeOf T yes) (hno : MadeOf T no) :
      MadeOf T (.branch t cond yes no)

/-- A syntax error at a token with the property `T`. -/
inductive Diagnostic.AtToken (T : Token → Prop) : Diagnostic → Prop where
  | mk {t : Token} (ht : T t) (cause : SyntaxCause) : AtToken T (.syntactic t cause)

namespace Parse

variable {T : Token → Prop}

/-- All tokens that are still to be read have the property, the end mark has it, and every report
stands at a token that has it. -/
structure Cursor.HasAll (T : Token → Prop) (c : Cursor) : Prop where
  rest : ∀ t ∈ c.rest, T t
  finish : T c.finish
  reports : ∀ d ∈ c.reports, d.AtToken T

def Fault.AtToken (T : Token → Prop) : Fault → Prop
  | .failed d | .tooDeep d => d.AtToken T
  | .unwinding => True

/-- The result of a run is in `Q`, and tokens with the property are left. -/
inductive Run.Keeps (T : Token → Prop) (Q : α → Prop) : Run α → Prop where
  | ok {a : α} {c : Cursor} (ha : Q a) (hc : c.HasAll T) : Keeps T Q (.ok a c)
  | error {e : Fault} {c : Cursor} (he : e.AtToken T) (hc : c.HasAll T) : Keeps T Q (.error e c)

/-- From tokens with the property `T` the production makes something in `Q`. -/
def Makes (T : Token → Prop) (Q : α → Prop) (p : Production α) : Prop :=
  ∀ c : Cursor, c.HasAll T → Run.Keeps T Q (p c)

namespace Cursor.HasAll

variable {c : Cursor}

theorem peek (h : c.HasAll T) : T c.peek := by
  cases hrest : c.rest with
  | nil =>
      rw [Cursor.peek_of_nil hrest]
      exact h.finish
  | cons t rest =>
      rw [Cursor.peek_of_cons hrest]
      exact h.rest t (by simp [hrest])

theorem synchronized (h : c.HasAll T) : (synchronize c).HasAll T := by
  have hahead := synchronize_ahead c
  obtain ⟨used, hused, -⟩ := hahead.passed
  refine ⟨fun t ht => h.rest t ?_, hahead.finish ▸ h.finish, ?_⟩
  · rw [hused]
    exact List.mem_append_right used ht
  · rw [synchronize_reports]
    exact h.reports

theorem report (h : c.HasAll T) {d : Diagnostic} (hd : d.AtToken T) : (c.report d).HasAll T :=
  ⟨h.rest, h.finish, List.forall_mem_cons.mpr ⟨hd, h.reports⟩⟩

theorem behind (h : c.HasAll T) {t : Token} {rest : List Token} (hrest : c.rest = t :: rest) :
    Cursor.HasAll T { c with rest } :=
  ⟨fun u hu => h.rest u (hrest ▸ List.mem_cons_of_mem t hu), h.finish, h.reports⟩

end Cursor.HasAll

/-! ## Primitive steps and sequences -/

namespace Makes

variable {Q : α → Prop} {R : β → Prop}

theorem pure {a : α} (h : Q a) : Makes T Q (pure a) := fun _ hc => .ok h hc

theorem bind {p : Production α} {f : α → Production β} (hp : Makes T Q p)
    (hf : ∀ a, Q a → Makes T R (f a)) : Makes T R (p >>= f) := by
  intro c hc
  have hrun := hp c hc
  simp only [Bind.bind, EStateM.bind]
  generalize p c = r at hrun
  cases hrun with
  | ok ha hcursor => exact hf _ ha _ hcursor
  | error he hcursor => exact .error he hcursor

theorem imp {p : Production α} {R : α → Prop} (h : Makes T Q p) (hQR : ∀ a, Q a → R a) :
    Makes T R p := by
  intro c hc
  have hrun := h c hc
  generalize p c = r at hrun
  cases hrun with
  | ok ha hcursor => exact .ok (hQR _ ha) hcursor
  | error he hcursor => exact .error he hcursor

theorem peek : Makes T T peek := fun _ hc => .ok hc.peek hc

theorem advance : Makes T (fun _ => True) advance := by
  intro c hc
  exact .ok trivial ⟨fun t ht => hc.rest t (List.mem_of_mem_tail ht), hc.finish, hc.reports⟩

theorem tokensLeft : Makes T (fun _ => True) tokensLeft := fun _ hc => .ok trivial hc

theorem fail (cause : SyntaxCause) : Makes T Q (fail cause) :=
  fun _ hc => .error (.mk hc.peek cause) hc

theorem report {d : Diagnostic} (hd : d.AtToken T) : Makes T (fun _ => True) (report d) :=
  fun _ hc => .ok trivial (hc.report hd)

theorem accept (kinds : TokenKind → Bool) :
    Makes T (fun found => ∀ t ∈ found, T t ∧ kinds t.kind = true) (accept kinds) := by
  intro c hc
  rcases accept_cases kinds c with ⟨t, rest, hrest, hkind, hrun⟩ | ⟨-, hrun⟩
  · rw [hrun]
    refine .ok ?_ (hc.behind hrest)
    rintro u ⟨⟩
    exact ⟨hc.rest t (by simp [hrest]), hkind⟩
  · rw [hrun]
    exact .ok nofun hc

theorem expect (kind : TokenKind) (cause : SyntaxCause) :
    Makes T (fun t => T t ∧ t.kind = kind) (expect kind cause) := by
  intro c hc
  cases hrest : c.rest with
  | nil =>
      rw [expect_of_nil _ _ hrest]
      exact .error (.mk hc.finish cause) hc
  | cons t rest =>
      have ht : T t := hc.rest t (by simp [hrest])
      rw [expect_of_cons _ _ hrest]
      split
      · next hkind => exact .ok ⟨ht, hkind⟩ (hc.behind hrest)
      · exact .error (.mk ht cause) hc

theorem closing (kind : TokenKind) (cause : SyntaxCause) {a : α} (h : Q a) :
    Makes T Q (do let _ ← Parse.expect kind cause; Pure.pure a) :=
  (expect kind cause).bind fun _ _ => pure h

theorem commaSeparated {p : Production α} (hp : Makes T Q p) (budget : List Token)
    {done : List α} (hdone : ∀ a ∈ done, Q a) :
    Makes T (fun as => ∀ a ∈ as, Q a) (commaSeparated p budget done) := by
  induction budget generalizing done with
  | nil => exact pure (by simpa using hdone)
  | cons _ budget ih =>
      refine hp.bind fun a ha => ?_
      have hmore : ∀ b ∈ a :: done, Q b := List.forall_mem_cons.mpr ⟨ha, hdone⟩
      refine (accept _).bind fun found _ => ?_
      cases found with
      | none => exact pure fun b hb => hmore b (List.mem_reverse.mp hb)
      | some _ => exact ih hmore

end Makes

/-! ## Expressions -/

/-- With `n` levels left, expressions are made of tokens with the property. -/
structure MakesExpressions (T : Token → Prop) (n : Nat) : Prop where
  expression : Makes T (Expr.MadeOf T) (expression n)
  operand : Makes T (Expr.MadeOf T) (operand n)
  chain : ∀ (tier : Tier) (e : Expr), e.MadeOf T → Makes T (Expr.MadeOf T) (chain tier n e)
  chains : ∀ (tiers : List Tier) (e : Expr), e.MadeOf T →
    Makes T (Expr.MadeOf T) (chains tiers n e)

section Expressions

variable {n : Nat}

theorem makes_prefixed (h : ∀ m, m < n → MakesExpressions T m) {op : Token} (ht : T op)
    (hsign : op.kind = .bang ∨ op.kind = .minus) :
    Makes T (Expr.MadeOf T) (prefixed n op) := by
  cases n with
  | zero => exact .fail _
  | succ m =>
      exact (h m (Nat.lt_succ_self m)).operand.bind fun e he => .pure (.unary ht hsign he)

section Within

variable (hexpr : Makes T (Expr.MadeOf T) (expression n))
include hexpr

theorem makes_grouped : Makes T (Expr.MadeOf T) (grouped n) :=
  hexpr.bind fun _ he => .closing _ _ he

theorem makes_listed {bracket : Token} (ht : T bracket) (hkind : bracket.kind = .leftBracket) :
    Makes T (Expr.MadeOf T) (listed n bracket) := by
  refine Makes.peek.bind fun next _ => ?_
  split
  · exact Makes.advance.bind fun _ _ => .pure (.array ht hkind nofun)
  · refine Makes.bind ?_ fun es hes => .closing _ _ (.array ht hkind hes)
    exact Makes.tokensLeft.bind fun ts _ => hexpr.commaSeparated _ nofun

theorem makes_operand (h : ∀ m, m < n → MakesExpressions T m) :
    Makes T (Expr.MadeOf T) (operand n) := by
  rw [operand_eq]
  refine Makes.peek.bind fun t ht => ?_
  cases hopening : opening t with
  | sign =>
      have hsign := opening_eq_sign.mp hopening
      exact Makes.advance.bind fun _ _ => makes_prefixed h ht hsign
  | constant v =>
      have hdenotes := opening_eq_constant.mp hopening
      exact Makes.advance.bind fun _ _ => .pure (.constant ht hdenotes)
  | name =>
      have hname := opening_eq_name.mp hopening
      exact Makes.advance.bind fun _ _ => .pure (.name ht hname)
  | group => exact Makes.advance.bind fun _ _ => makes_grouped hexpr
  | array =>
      have hbracket := opening_eq_array.mp hopening
      exact Makes.advance.bind fun _ _ => makes_listed hexpr ht hbracket
  | other => exact .fail _

/-- Also when the left side of an assignment is no name, it is kept as it is. -/
theorem makes_assigned {target : Expr} (htarget : target.MadeOf T) :
    Makes T (Expr.MadeOf T) (assigned n target) := by
  refine (Makes.accept _).bind fun found hfound => ?_
  cases found with
  | none => exact .pure htarget
  | some equals =>
      refine hexpr.bind fun value hvalue => ?_
      cases target
      case reference name =>
        cases htarget with
        | name ht hkind => exact .pure (.assign ht hkind hvalue)
      all_goals
        exact (Makes.report (.mk (hfound equals rfl).1 _)).bind fun _ _ => .pure htarget

end Within

theorem makes_climb (h : MakesExpressions T n) (tiers : List Tier) :
    Makes T (Expr.MadeOf T) (climb tiers n) :=
  h.operand.bind fun e he => h.chains tiers e he

theorem makes_chain (h : ∀ m, m < n → MakesExpressions T m) (tier : Tier) {left : Expr}
    (hleft : left.MadeOf T) : Makes T (Expr.MadeOf T) (chain tier n left) := by
  rw [chain_eq]
  refine (Makes.accept _).bind fun found hfound => ?_
  cases found with
  | none => exact .pure hleft
  | some op =>
      obtain ⟨ht, hkind⟩ := hfound op rfl
      cases n with
      | zero => exact .fail _
      | succ m =>
          have hm := h m (Nat.lt_succ_self m)
          refine (makes_climb hm tier.tighter).bind fun right hright => ?_
          exact hm.chain tier _ (.binary hleft ht (operators_eq_true.mp hkind) hright)

theorem makes_chains
    (h : ∀ (tier : Tier) (e : Expr), e.MadeOf T → Makes T (Expr.MadeOf T) (chain tier n e))
    (tiers : List Tier) {left : Expr} (hleft : left.MadeOf T) :
    Makes T (Expr.MadeOf T) (chains tiers n left) := by
  induction tiers generalizing left with
  | nil =>
      rw [chains_nil]
      exact .pure hleft
  | cons tier looser ih =>
      rw [chains_cons]
      exact (h tier left hleft).bind fun e he => ih he

theorem makes_expression (h : ∀ m, m < n → MakesExpressions T m) :
    Makes T (Expr.MadeOf T) (expression n) := by
  cases n with
  | zero =>
      rw [expression_zero]
      exact .fail _
  | succ m =>
      have hm := h m (Nat.lt_succ_self m)
      rw [expression_succ]
      exact (makes_climb hm _).bind fun e he => makes_assigned hm.expression he

end Expressions

theorem makesExpressions (n : Nat) : MakesExpressions T n := by
  induction n using Nat.strongRecOn with
  | ind n ih =>
      have hexpr := makes_expression ih
      have hchain : ∀ (tier : Tier) (e : Expr), e.MadeOf T →
          Makes T (Expr.MadeOf T) (chain tier n e) :=
        fun tier _ he => makes_chain ih tier he
      exact ⟨hexpr, makes_operand hexpr ih, hchain, fun tiers _ he => makes_chains hchain tiers he⟩

/-! ## Statements -/

section Blocks

variable {Q : Stmt → Prop}

theorem makes_inner {body : Production Stmt} (h : Makes T Q body) :
    Makes T (fun found => ∀ s ∈ found, Q s) (inner body) := by
  intro c hc
  have hrun := h c hc
  unfold inner
  generalize body c = r at hrun
  cases hrun with
  | ok hs hcursor =>
      refine .ok ?_ hcursor
      rintro s ⟨⟩
      exact hs
  | @error e c' he hcursor =>
      cases e with
      | failed d => exact .ok nofun (hcursor.report he).synchronized
      | tooDeep d => exact .error trivial (hcursor.report he)
      | unwinding => exact .error trivial hcursor

theorem makes_blockItems {item : Production (Option Stmt)}
    (h : Makes T (fun found => ∀ s ∈ found, Q s) item) (budget : List Token)
    {done : List Stmt} (hdone : ∀ s ∈ done, Q s) :
    Makes T (fun stmts => ∀ s ∈ stmts, Q s) (blockItems item budget done) := by
  induction budget generalizing done with
  | nil => exact .pure (by simpa using hdone)
  | cons _ budget ih =>
      rw [blockItems_cons]
      refine Makes.peek.bind fun t _ => ?_
      split
      · exact .pure (by simpa using hdone)
      · refine h.bind fun found hfound => ?_
        cases found with
        | none => exact ih hdone
        | some s => exact ih (List.forall_mem_cons.mpr ⟨hfound s rfl, hdone⟩)

theorem makes_items {n : Nat} (h : Makes T Q (declaration n)) :
    Makes T (fun stmts => ∀ s ∈ stmts, Q s) (items n) :=
  Makes.tokensLeft.bind fun ts _ => makes_blockItems (makes_inner h) ts nofun

end Blocks

section Statements

variable (n : Nat)

theorem makes_declared : Makes T (Stmt.MadeOf T) (declared n) := by
  rw [declared_eq]
  refine (Makes.expect _ _).bind fun name hname => ?_
  refine (Makes.accept _).bind fun found _ => ?_
  cases found with
  | none => exact .closing _ _ (.uninitialized hname.1 hname.2)
  | some _ =>
      exact (makesExpressions n).expression.bind fun _ he =>
        .closing _ _ (.initialized hname.1 hname.2 he)

variable (h : Makes T (Stmt.MadeOf T) (statement n))
include h

theorem makes_declaration : Makes T (Stmt.MadeOf T) (declaration n) := by
  refine (Makes.accept _).bind fun found _ => ?_
  cases found with
  | none => exact h
  | some _ => exact makes_declared n

theorem makes_enclosed {brace : Token} (ht : T brace) (hkind : brace.kind = .leftBrace) :
    Makes T (Stmt.MadeOf T) (enclosed n brace) :=
  (makes_items (makes_declaration n h)).bind fun _ hss => .closing _ _ (.block ht hkind hss)

theorem makes_branched {t : Token} (ht : T t) (hkind : t.kind = .kwIf) :
    Makes T (Stmt.MadeOf T) (branched n t) := by
  refine (Makes.expect _ _).bind fun _ _ => ?_
  refine (makesExpressions n).expression.bind fun cond hcond => ?_
  refine (Makes.expect _ _).bind fun _ _ => ?_
  refine h.bind fun yes hyes => ?_
  refine (Makes.accept _).bind fun found _ => ?_
  cases found with
  | none => exact .pure (.branch ht hkind hcond hyes)
  | some _ => exact h.bind fun no hno => .pure (.branchElse ht hkind hcond hyes hno)

theorem makes_statementBehind {t : Token} (ht : T t) :
    Makes T (Stmt.MadeOf T) (statementBehind n t) := by
  have hexpr := (makesExpressions (T := T) n).expression
  unfold statementBehind
  split
  · next hkind =>
      refine Makes.advance.bind fun _ _ => ?_
      exact hexpr.bind fun _ he => .closing _ _ (.print ht hkind he)
  · next hkind => exact Makes.advance.bind fun _ _ => makes_enclosed n h ht hkind
  · next hkind => exact Makes.advance.bind fun _ _ => makes_branched n h ht hkind
  · exact hexpr.bind fun _ he => .closing _ _ (.expression he)

end Statements

theorem makes_statement (n : Nat) : Makes T (Stmt.MadeOf T) (statement n) := by
  induction n with
  | zero => exact fun c hc => .error (.mk hc.peek .statementTooDeep) hc
  | succ n ih =>
      rw [statement_succ]
      exact Makes.peek.bind fun t ht => makes_statementBehind n ih ht

/-! ## Whole texts -/

section Programs

variable {Q : Stmt → Prop} {limit : Nat} (hdeclaration : Makes T Q (declaration limit))
include hdeclaration

theorem outermost_made {c : Cursor} (h : c.HasAll T) :
    (∀ s ∈ (outermost limit c).1, Q s) ∧ (outermost limit c).2.HasAll T := by
  have hrun := hdeclaration c h
  have hnone : ∀ s ∈ (none : Option Stmt), Q s := by simp
  rw [declaration] at hrun
  unfold outermost
  generalize declarationBody limit (statement limit) c = r at hrun
  cases hrun with
  | ok hs hcursor =>
      refine ⟨?_, hcursor⟩
      rintro s ⟨⟩
      exact hs
  | @error e c' he hcursor =>
      cases e with
      | failed d => exact ⟨hnone, (hcursor.report he).synchronized⟩
      | tooDeep d => exact ⟨hnone, (hcursor.report he).synchronized⟩
      | unwinding => exact ⟨hnone, hcursor.synchronized⟩

theorem declarations_made (fuel : Nat) {c : Cursor} (h : c.HasAll T) {done : List Stmt}
    (hdone : ∀ s ∈ done, Q s) :
    (∀ s ∈ (declarations limit fuel done c).1, Q s) ∧
      (declarations limit fuel done c).2.HasAll T := by
  induction fuel generalizing c done with
  | zero => exact ⟨by simpa [declarations] using hdone, h⟩
  | succ fuel ih =>
      by_cases hnil : c.rest = []
      · rw [declarations_of_nil _ _ _ hnil]
        exact ⟨by simpa using hdone, h⟩
      · obtain ⟨hfound, hcursor⟩ := outermost_made hdeclaration h
        rw [declarations_succ _ _ _ hnil]
        refine ih hcursor ?_
        intro s hs
        rcases List.mem_append.mp hs with hs | hs
        · exact hfound s (by simpa using hs)
        · exact hdone s hs

end Programs

end Parse

section

variable {T : Token → Prop} {tokens : List Token} (limit : Nat) (htokens : ∀ t ∈ tokens, T t)
  (hend : T (Parse.endMark tokens))
include htokens hend

/-- What holds of every declaration holds of the statements of a text. -/
theorem parse_makes {Q : Stmt → Prop} (h : Parse.Makes T Q (Parse.declaration limit)) :
    (∀ s ∈ (parse tokens limit).stmts, Q s) ∧
      ∀ d ∈ (parse tokens limit).reports, d.AtToken T := by
  have hstart : (Parse.start tokens).HasAll T :=
    ⟨fun t ht => htokens t (List.takeWhile_subset _ ht), hend, nofun⟩
  obtain ⟨hstmts, hcursor⟩ :=
    Parse.declarations_made h (Parse.start tokens).rest.length hstart (List.forall_mem_nil _)
  exact ⟨hstmts, fun d hd => hcursor.reports d (List.mem_reverse.mp hd)⟩

theorem parse_keeps : (∀ s ∈ (parse tokens limit).stmts, s.MadeOf T) ∧
    ∀ d ∈ (parse tokens limit).reports, d.AtToken T :=
  parse_makes limit htokens hend (Parse.makes_declaration limit (Parse.makes_statement limit))

/-- Every statement of a text is made of tokens of the text. -/
theorem parse_made : ∀ s ∈ (parse tokens limit).stmts, s.MadeOf T :=
  (parse_keeps limit htokens hend).1

end

end Scribe
