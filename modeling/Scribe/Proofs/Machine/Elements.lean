import Scribe.Proofs.Machine.Scoping

/-!
# Elements that are not evaluated

Unless elements are evaluated, an array is empty, whatever is written in it. Programs that differ in
what is written in their arrays therefore do the same: no element is reached, so none can assign,
fail or use up levels.
-/

namespace Scribe

/-- The same expression but for the elements of its arrays, which may be any. -/
inductive Expr.SameButElements : Expr → Expr → Prop
  | absent : SameButElements .absent .absent
  | literal (v : Value) (line : Int) : SameButElements (.literal v line) (.literal v line)
  | reference (name : Token) : SameButElements (.reference name) (.reference name)
  | assign (name : Token) {e f : Expr} (hvalue : e.SameButElements f) :
      SameButElements (.assign name e) (.assign name f)
  | unary (op : Token) {e f : Expr} (hoperand : e.SameButElements f) :
      SameButElements (.unary op e) (.unary op f)
  | binary {left left' right right' : Expr} (hleft : left.SameButElements left') (op : Token)
      (hright : right.SameButElements right') :
      SameButElements (.binary left op right) (.binary left' op right')
  | array (bracket : Token) (elems elems' : List Expr) :
      SameButElements (.array bracket elems) (.array bracket elems')

inductive Stmt.SameButElements : Stmt → Stmt → Prop
  | absent : SameButElements .absent .absent
  | print (keyword : Token) {e f : Expr} (hexpr : e.SameButElements f) :
      SameButElements (.print keyword e) (.print keyword f)
  | expression {e f : Expr} (hexpr : e.SameButElements f) :
      SameButElements (.expression e) (.expression f)
  | declare (name : Token) {e f : Expr} (hinit : e.SameButElements f) :
      SameButElements (.declare name e) (.declare name f)
  | block (brace : Token) {ss rs : List Stmt} (hstmts : List.Forall₂ SameButElements ss rs) :
      SameButElements (.block brace ss) (.block brace rs)
  | branch (keyword : Token) {cond cond' : Expr} {yes yes' no no' : Stmt}
      (hcond : cond.SameButElements cond') (hyes : yes.SameButElements yes')
      (hno : no.SameButElements no') :
      SameButElements (.branch keyword cond yes no) (.branch keyword cond' yes' no')

theorem Expr.SameButElements.line {e f : Expr} (h : e.SameButElements f) : e.line = f.line := by
  cases h <;> rfl

theorem Expr.SameButElements.absent_iff {e f : Expr} (h : e.SameButElements f) :
    e = .absent ↔ f = .absent := by
  cases h <;> simp

theorem Stmt.SameButElements.isAbsent {s r : Stmt} (h : s.SameButElements r) :
    s.isAbsent = r.isAbsent := by
  cases h <;> rfl

theorem Stmt.SameButElements.line? {s r : Stmt} (h : s.SameButElements r) : s.line? = r.line? := by
  cases h with
  | expression hexpr => cases hexpr <;> rfl
  | _ => rfl

section Unevaluated

variable {o : Options}

theorem evaluate_sameButElements (hoff : o.arrayElements = false) {e f : Expr}
    (h : e.SameButElements f) : evaluate o e = evaluate o f := by
  induction h with
  | absent | literal _ _ | reference _ => rfl
  | assign name _ ih | unary op _ ih => rw [evaluate, evaluate, ih]
  | binary _ op _ ihleft ihright => rw [evaluate, evaluate, ihleft, ihright]
  | array bracket elems elems' =>
      have hempty : ¬ o.arrayElements = true := by simp [hoff]
      rw [evaluate, evaluate, if_neg hempty, if_neg hempty]

mutual

theorem execute_sameButElements (hoff : o.arrayElements = false) (hlive : o.cancelled = false) :
    (s : Stmt) → {r : Stmt} → s.SameButElements r → execute o s = execute o r
  | .absent, _, h => by
      cases h
      rfl
  | .print keyword e, _, h => by
      cases h with
      | print _ hexpr =>
          rw [execute_print hlive, execute_print hlive, evaluate_sameButElements hoff hexpr]
          rfl
  | .expression e, _, h => by
      cases h with
      | @expression _ f hexpr =>
          by_cases he : e = .absent
          · rw [he, hexpr.absent_iff.mp he]
          · have hf : f ≠ .absent := mt hexpr.absent_iff.mpr he
            rw [execute_expression hlive he, execute_expression hlive hf, hexpr.line,
              evaluate_sameButElements hoff hexpr]
            rfl
  | .declare name init, _, h => by
      cases h with
      | @declare _ _ f hinit =>
          by_cases he : init = .absent
          · rw [he, hinit.absent_iff.mp he]
          · have hf : f ≠ .absent := mt hinit.absent_iff.mpr he
            rw [execute_declare hlive name he, execute_declare hlive name hf,
              evaluate_sameButElements hoff hinit]
            rfl
  | .block brace stmts, _, h => by
      cases h with
      | block _ hstmts =>
          rw [execute_block hlive, execute_block hlive,
            executeAll_sameButElements hoff hlive stmts hstmts]
          rfl
  | .branch keyword cond yes no, _, h => by
      cases h with
      | @branch _ _ _ _ yes' _ no' hcond hyes hno =>
          have hchosen : chosen o yes no = chosen o yes' no' := by
            funext v
            rw [chosen, chosen, execute_sameButElements hoff hlive yes hyes,
              execute_sameButElements hoff hlive no hno, hno.isAbsent]
          rw [execute_branch hlive, execute_branch hlive, evaluate_sameButElements hoff hcond,
            hchosen]
          rfl

theorem executeAll_sameButElements (hoff : o.arrayElements = false) (hlive : o.cancelled = false) :
    (ss : List Stmt) → {rs : List Stmt} → List.Forall₂ Stmt.SameButElements ss rs →
    executeAll o ss = executeAll o rs
  | [], _, h => by
      cases h
      rfl
  | s :: ss, _, h => by
      cases h with
      | cons hs hss =>
          rw [executeAll, executeAll, execute_sameButElements hoff hlive s hs,
            executeAll_sameButElements hoff hlive ss hss]

end

/-- Also statements that have been called off. -/
theorem execute_eq_of_sameButElements (hoff : o.arrayElements = false) {s r : Stmt}
    (h : s.SameButElements r) : execute o s = execute o r := by
  by_cases hlive : o.cancelled = true
  · funext m
    rw [execute_cancelled hlive, execute_cancelled hlive]
  · exact execute_sameButElements hoff (by simpa using hlive) s h

theorem executeEach_sameButElements (hoff : o.arrayElements = false) {ss rs : List Stmt}
    (h : List.Forall₂ Stmt.SameButElements ss rs) :
    Interpreter.executeEach o ss = Interpreter.executeEach o rs := by
  induction h with
  | nil => rfl
  | cons hs _ ih =>
      funext p
      rw [Interpreter.executeEach, Interpreter.executeEach, execute_eq_of_sameButElements hoff hs,
        hs.line?, ih]

theorem executions_sameButElements (hoff : o.arrayElements = false) {ss rs : List Stmt}
    (h : List.Forall₂ Stmt.SameButElements ss rs) : executions o ss = executions o rs := by
  induction h with
  | nil => rfl
  | cons hs _ ih =>
      funext m
      rw [executions, executions, execute_eq_of_sameButElements hoff hs, ih]

end Unevaluated

/-- An interpreter that does not evaluate elements does the same with two programs that differ in
the elements of their arrays alone: bindings, output and diagnostics are the same, and so is the
log. Each statement by itself ends in the same way. -/
theorem elements_irrelevant {i : Interpreter} (hoff : i.options.arrayElements = false)
    {p q : Program} (hstmts : List.Forall₂ Stmt.SameButElements p.stmts q.stmts)
    (hdiags : p.diagnostics = q.diagnostics) :
    i.runProgram p = i.runProgram q ∧
      executions i.options p.stmts = executions i.options q.stmts := by
  refine ⟨?_, executions_sameButElements hoff hstmts⟩
  simp only [Interpreter.runProgram, executeEach_sameButElements hoff hstmts, hdiags]

/-- What stands in the array of the first text would bind `y` and fail on `z`. -/
theorem unevaluated_elements_irrelevant :
    let p := Program.ofSource (utf8 "let x = [[y = nil], z];") 9
    let q := Program.ofSource (utf8 "let x = [];") 9
    let i : Interpreter := .ofOptions { limit := 9 } []
    List.Forall₂ Stmt.SameButElements p.stmts q.stmts ∧ p.diagnostics = q.diagnostics ∧
      (i.runProgram q).interpreter.bindings.entries = [(utf8 "x", .array [])] ∧
      i.runProgram p = i.runProgram q := by
  intro p q i
  let t (kind : TokenKind) (lexeme : String) : Token := ⟨kind, utf8 lexeme, .null, 1⟩
  let x := t .identifier "x"
  let bracket := t .leftBracket "["
  have hp : p.stmts = [.declare x (.array bracket [.array bracket
      [.assign (t .identifier "y") (.literal .null 1)], .reference (t .identifier "z")])] := by cbv
  have hq : q.stmts = [.declare x (.array bracket [])] := by cbv
  have hstmts : List.Forall₂ Stmt.SameButElements p.stmts q.stmts := by
    rw [hp, hq]
    exact .cons (.declare x (.array bracket _ _)) .nil
  have hdiags : p.diagnostics = q.diagnostics := by cbv
  exact ⟨hstmts, hdiags, by cbv, (elements_irrelevant rfl hstmts hdiags).1⟩

end Scribe
