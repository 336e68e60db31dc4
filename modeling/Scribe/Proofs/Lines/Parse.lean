import Scribe.Proofs.Lines.Basic
import Scribe.Proofs.Parse.Progress

/-!
# Parsing on other lines

Parsing looks at categories only, so that tokens on other lines are parsed to the same trees and the
same reports, with other lines. The trees are whole, also those around an error.
-/

namespace Scribe

namespace Parse

variable {L : Int → Int → Prop}

/-! ## Runs that correspond -/

structure Cursor.Alike (L : Int → Int → Prop) (c d : Cursor) : Prop where
  rest : List.Forall₂ (Token.Alike L) c.rest d.rest
  finish : c.finish.Alike L d.finish
  reports : List.Forall₂ (Diagnostic.Alike L .syntactic) c.reports d.reports

inductive Fault.Alike (L : Int → Int → Prop) : Fault → Fault → Prop
  | failed {d e : Diagnostic} (h : d.Alike L .syntactic e) : Alike L (.failed d) (.failed e)
  | tooDeep {d e : Diagnostic} (h : d.Alike L .syntactic e) : Alike L (.tooDeep d) (.tooDeep e)
  | unwinding : Alike L .unwinding .unwinding

inductive Run.Alike (L : Int → Int → Prop) (R : α → α → Prop) : Run α → Run α → Prop
  | ok {a b : α} {c d : Cursor} (hresult : R a b) (hcursor : c.Alike L d) :
      Alike L R (.ok a c) (.ok b d)
  | error {e f : Fault} {c d : Cursor} (hfault : e.Alike L f) (hcursor : c.Alike L d) :
      Alike L R (.error e c) (.error f d)

/-- From cursors that correspond, two productions end in the same way, with results in `R`. -/
def Production.Alike (L : Int → Int → Prop) (R : α → α → Prop) (p q : Production α) : Prop :=
  ∀ c d : Cursor, c.Alike L d → Run.Alike L R (p c) (q d)

namespace Cursor.Alike

variable {c d : Cursor}

theorem peek (h : c.Alike L d) : c.peek.Alike L d.peek := by
  obtain ⟨rest, finish, reports⟩ := c
  obtain ⟨rest', finish', reports'⟩ := d
  cases h.rest with
  | nil => exact h.finish
  | cons ht _ => exact ht

theorem withRest (h : c.Alike L d) {rest rest' : List Token}
    (hrest : List.Forall₂ (Token.Alike L) rest rest') :
    Cursor.Alike L { c with rest } { d with rest := rest' } :=
  ⟨hrest, h.finish, h.reports⟩

theorem report (h : c.Alike L d) {e f : Diagnostic} (he : e.Alike L .syntactic f) :
    (c.report e).Alike L (d.report f) :=
  ⟨h.rest, h.finish, .cons he h.reports⟩

end Cursor.Alike

/-! ## Primitive steps and sequences -/

namespace Production.Alike

variable {R : α → α → Prop} {S : β → β → Prop}

theorem pure {a b : α} (h : R a b) : Production.Alike L R (pure a) (pure b) :=
  fun _ _ hc => .ok h hc

theorem bind {p q : Production α} {f g : α → Production β} (hp : Production.Alike L R p q)
    (hf : ∀ a b, R a b → Production.Alike L S (f a) (g b)) :
    Production.Alike L S (p >>= f) (q >>= g) := by
  intro c d hc
  have hrun := hp c d hc
  simp only [Bind.bind, EStateM.bind]
  generalize p c = r, q d = r' at hrun
  cases hrun with
  | ok hab hcursor => exact hf _ _ hab _ _ hcursor
  | error hfault hcursor => exact .error hfault hcursor

theorem peek : Production.Alike L (Token.Alike L) peek peek :=
  fun _ _ hc => .ok hc.peek hc

theorem advance : Production.Alike L (fun _ _ => True) advance advance := by
  intro c d hc
  refine .ok trivial (hc.withRest ?_)
  rw [← List.drop_one, ← List.drop_one]
  exact List.forall₂_drop 1 hc.rest

theorem tokensLeft : Production.Alike L (List.Forall₂ (Token.Alike L)) tokensLeft tokensLeft :=
  fun _ _ hc => .ok hc.rest hc

theorem fail (cause : SyntaxCause) : Production.Alike L R (fail cause) (fail cause) :=
  fun _ _ hc => .error (.failed (.syntactic hc.peek cause)) hc

theorem report {e f : Diagnostic} (h : e.Alike L .syntactic f) :
    Production.Alike L (fun _ _ => True) (report e) (report f) :=
  fun _ _ hc => .ok trivial (hc.report h)

theorem accept (kinds : TokenKind → Bool) :
    Production.Alike L (Option.Rel fun t u => t.Alike L u ∧ kinds t.kind = true)
      (accept kinds) (accept kinds) := by
  rintro ⟨rest, finish, reports⟩ ⟨rest', finish', reports'⟩ hc
  cases hc.rest with
  | nil => exact .ok .none hc
  | @cons t u rest rest' ht hrest =>
      simp only [Parse.accept, ← ht.kind]
      split
      · next hkind => exact .ok (.some ⟨ht, hkind⟩) (hc.withRest hrest)
      · exact .ok .none hc

theorem expect (kind : TokenKind) (cause : SyntaxCause) :
    Production.Alike L (Token.Alike L) (expect kind cause) (expect kind cause) := by
  rintro ⟨rest, finish, reports⟩ ⟨rest', finish', reports'⟩ hc
  cases hc.rest with
  | nil => exact .error (.failed (.syntactic hc.finish cause)) hc
  | @cons t u rest rest' ht hrest =>
      simp only [Parse.expect, ← ht.kind]
      split
      · exact .ok ht (hc.withRest hrest)
      · exact .error (.failed (.syntactic ht cause)) hc

/-- The last steps of a production: a closing token, then its result. -/
theorem closing (kind : TokenKind) (cause : SyntaxCause) {a b : α} (h : R a b) :
    Production.Alike L R (do let _ ← Parse.expect kind cause; Pure.pure a)
      (do let _ ← Parse.expect kind cause; Pure.pure b) :=
  (expect kind cause).bind fun _ _ _ => pure h

theorem commaSeparated {p q : Production α} (hp : Production.Alike L R p q)
    {budget budget' : List Token} (hbudget : List.Forall₂ (Token.Alike L) budget budget')
    {done done' : List α} (hdone : List.Forall₂ R done done') :
    Production.Alike L (List.Forall₂ R) (commaSeparated p budget done)
      (commaSeparated q budget' done') := by
  induction hbudget generalizing done done' with
  | nil => exact pure (List.rel_reverse hdone)
  | cons _ _ ih =>
      refine hp.bind fun a b hab => ?_
      refine (accept _).bind fun found found' hfound => ?_
      cases hfound with
      | none => exact pure (List.rel_reverse (.cons hab hdone))
      | some _ => exact ih (.cons hab hdone)

end Production.Alike

/-! ## Expressions -/

/-- Expressions with `n` levels left do not see lines. -/
structure ExpressionsAlike (L : Int → Int → Prop) (n : Nat) : Prop where
  expression : Production.Alike L (Expr.Alike L) (expression n) (expression n)
  operand : Production.Alike L (Expr.Alike L) (operand n) (operand n)
  chain : ∀ (tier : Tier) (e f : Expr), e.Alike L f →
    Production.Alike L (Expr.Alike L) (chain tier n e) (chain tier n f)
  chains : ∀ (tiers : List Tier) (e f : Expr), e.Alike L f →
    Production.Alike L (Expr.Alike L) (chains tiers n e) (chains tiers n f)

section Expressions

variable {n : Nat}

theorem opening_alike {t u : Token} (h : t.Alike L u) : opening t = opening u := by
  rw [opening, opening, h.kind, h.literal]

theorem isSign_of_opening {t : Token} (h : opening t = .sign) : t.kind.isSign = true := by
  unfold opening at h
  split at h <;> simp_all [TokenKind.isSign]

theorem prefixed_alike (h : ∀ m, m < n → ExpressionsAlike L m) {t u : Token} (ht : t.Alike L u)
    (hsign : t.kind.isSign = true) :
    Production.Alike L (Expr.Alike L) (prefixed n t) (prefixed n u) := by
  cases n with
  | zero => exact .fail _
  | succ m =>
      refine (h m (Nat.lt_succ_self m)).operand.bind fun e f he => ?_
      exact .pure (.unary ht hsign he)

variable (hexpr : Production.Alike L (Expr.Alike L) (expression n) (expression n))
include hexpr

theorem grouped_alike : Production.Alike L (Expr.Alike L) (grouped n) (grouped n) :=
  hexpr.bind fun _ _ he => .closing _ _ he

theorem listed_alike {t u : Token} (ht : t.Alike L u) :
    Production.Alike L (Expr.Alike L) (listed n t) (listed n u) := by
  refine Production.Alike.peek.bind fun next next' hnext => ?_
  rw [hnext.kind]
  split
  · exact Production.Alike.advance.bind fun _ _ _ => .pure (.array ht .nil)
  · refine Production.Alike.bind ?_ fun es fs hes => .closing _ _ (.array ht hes)
    exact Production.Alike.tokensLeft.bind fun ts us hts =>
      hexpr.commaSeparated (.cons ht hts) .nil

theorem operand_alike (h : ∀ m, m < n → ExpressionsAlike L m) :
    Production.Alike L (Expr.Alike L) (operand n) (operand n) := by
  rw [operand_eq]
  refine Production.Alike.peek.bind fun t u ht => ?_
  rw [← opening_alike ht]
  cases hopening : opening t with
  | sign =>
      have hsign := isSign_of_opening hopening
      exact Production.Alike.advance.bind fun _ _ _ => prefixed_alike h ht hsign
  | constant v => exact Production.Alike.advance.bind fun _ _ _ => .pure (.literal v ht.line)
  | name => exact Production.Alike.advance.bind fun _ _ _ => .pure (.reference ht)
  | group => exact Production.Alike.advance.bind fun _ _ _ => grouped_alike hexpr
  | array => exact Production.Alike.advance.bind fun _ _ _ => listed_alike hexpr ht
  | other => exact .fail _

omit hexpr in
theorem climb_alike (h : ExpressionsAlike L n) (tiers : List Tier) :
    Production.Alike L (Expr.Alike L) (climb tiers n) (climb tiers n) :=
  h.operand.bind fun e f he => h.chains tiers e f he

omit hexpr in
theorem chain_alike (h : ∀ m, m < n → ExpressionsAlike L m) (tier : Tier) {e f : Expr}
    (he : e.Alike L f) : Production.Alike L (Expr.Alike L) (chain tier n e) (chain tier n f) := by
  rw [chain_eq, chain_eq]
  refine (Production.Alike.accept _).bind fun found found' hfound => ?_
  cases hfound with
  | none => exact .pure he
  | some hop =>
      cases n with
      | zero => exact .fail _
      | succ m =>
          have hm := h m (Nat.lt_succ_self m)
          refine (climb_alike hm tier.tighter).bind fun e' f' he' => ?_
          exact hm.chain tier _ _ (.binary he hop.1 hop.2 he')

omit hexpr in
theorem chains_alike
    (h : ∀ (tier : Tier) (e f : Expr), e.Alike L f →
      Production.Alike L (Expr.Alike L) (chain tier n e) (chain tier n f))
    (tiers : List Tier) {e f : Expr} (he : e.Alike L f) :
    Production.Alike L (Expr.Alike L) (chains tiers n e) (chains tiers n f) := by
  induction tiers generalizing e f with
  | nil =>
      rw [chains_nil, chains_nil]
      exact .pure he
  | cons tier looser ih =>
      rw [chains_cons, chains_cons]
      exact (h tier e f he).bind fun e' f' he' => ih he'

/-- Also when the left side of an assignment is no name, it stays a whole expression. -/
theorem assigned_alike {e f : Expr} (he : e.Alike L f) :
    Production.Alike L (Expr.Alike L) (assigned n e) (assigned n f) := by
  refine (Production.Alike.accept _).bind fun found found' hfound => ?_
  cases hfound with
  | none => exact .pure he
  | some hequals =>
      refine hexpr.bind fun v w hv => ?_
      have hreport := Production.Alike.report (Diagnostic.Alike.syntactic hequals.1
        .invalidAssignmentTarget)
      cases he
      case reference hname => exact .pure (.assign hname hv)
      all_goals exact hreport.bind fun _ _ _ => .pure (by constructor <;> assumption)

end Expressions

theorem expression_alike {n : Nat} (h : ∀ m, m < n → ExpressionsAlike L m) :
    Production.Alike L (Expr.Alike L) (expression n) (expression n) := by
  cases n with
  | zero =>
      rw [expression_zero]
      exact .fail _
  | succ m =>
      have hm := h m (Nat.lt_succ_self m)
      rw [expression_succ]
      exact (climb_alike hm _).bind fun e f he => assigned_alike hm.expression he

theorem expressions_alike (n : Nat) : ExpressionsAlike L n := by
  induction n using Nat.strongRecOn with
  | ind n ih =>
      have hexpr := expression_alike ih
      have hchain : ∀ (tier : Tier) (e f : Expr), e.Alike L f →
          Production.Alike L (Expr.Alike L) (chain tier n e) (chain tier n f) :=
        fun tier _ _ he => chain_alike ih tier he
      exact ⟨hexpr, operand_alike hexpr ih, hchain,
        fun tiers _ _ he => chains_alike hchain tiers he⟩

/-! ## Statements -/

theorem boundaryAfter_alike {t u : Token} (ht : t.Alike L u) {rest rest' : List Token}
    (hrest : List.Forall₂ (Token.Alike L) rest rest') :
    List.Forall₂ (Token.Alike L) (boundaryAfter t rest) (boundaryAfter u rest') := by
  induction hrest generalizing t u with
  | nil => exact .nil
  | cons hnext hrest ih =>
      rw [boundaryAfter, boundaryAfter, ht.kind, hnext.kind]
      split
      · exact .cons hnext hrest
      · exact ih hnext

theorem synchronize_alike {c d : Cursor} (h : c.Alike L d) :
    (synchronize c).Alike L (synchronize d) := by
  obtain ⟨rest, finish, reports⟩ := c
  obtain ⟨rest', finish', reports'⟩ := d
  cases h.rest with
  | nil => exact h
  | cons ht hrest => exact h.withRest (boundaryAfter_alike ht hrest)

theorem inner_alike {p q : Production Stmt} (h : Production.Alike L (Stmt.Alike L) p q) :
    Production.Alike L (Option.Rel (Stmt.Alike L)) (inner p) (inner q) := by
  intro c d hc
  have hrun := h c d hc
  unfold inner
  generalize p c = r, q d = r' at hrun
  cases hrun with
  | ok hs hcursor => exact .ok (.some hs) hcursor
  | error hfault hcursor =>
      cases hfault with
      | failed hd => exact .ok .none (synchronize_alike (hcursor.report hd))
      | tooDeep hd => exact .error .unwinding (hcursor.report hd)
      | unwinding => exact .error .unwinding hcursor

theorem closes_alike {t u : Token} (h : t.Alike L u) : closes t = closes u := by
  rw [closes, closes, h.kind, h.isEnd]

theorem blockItems_alike {p q : Production (Option Stmt)}
    (h : Production.Alike L (Option.Rel (Stmt.Alike L)) p q) {budget budget' : List Token}
    (hbudget : List.Forall₂ (Token.Alike L) budget budget') {done done' : List Stmt}
    (hdone : List.Forall₂ (Stmt.Alike L) done done') :
    Production.Alike L (List.Forall₂ (Stmt.Alike L)) (blockItems p budget done)
      (blockItems q budget' done') := by
  induction hbudget generalizing done done' with
  | nil => exact .pure (List.rel_reverse hdone)
  | cons _ _ ih =>
      rw [blockItems_cons, blockItems_cons]
      refine Production.Alike.peek.bind fun t u ht => ?_
      rw [closes_alike ht]
      split
      · exact .pure (List.rel_reverse hdone)
      · refine h.bind fun found found' hfound => ?_
        cases hfound with
        | none => exact ih hdone
        | some hs => exact ih (.cons hs hdone)

section Statements

variable (n : Nat)

theorem declared_alike : Production.Alike L (Stmt.Alike L) (declared n) (declared n) := by
  rw [declared_eq]
  refine (Production.Alike.expect _ _).bind fun name name' hname => ?_
  refine (Production.Alike.accept _).bind fun found found' hfound => ?_
  cases hfound with
  | none => exact .closing _ _ (.declared hname)
  | some _ =>
      exact (expressions_alike n).expression.bind fun _ _ he =>
        .closing _ _ (.initialized hname he)

variable (h : Production.Alike L (Stmt.Alike L) (statement n) (statement n))
include h

theorem declaration_alike :
    Production.Alike L (Stmt.Alike L) (declaration n) (declaration n) := by
  refine (Production.Alike.accept _).bind fun found found' hfound => ?_
  cases hfound with
  | none => exact h
  | some _ => exact declared_alike n

theorem enclosed_alike {t u : Token} (ht : t.Alike L u) :
    Production.Alike L (Stmt.Alike L) (enclosed n t) (enclosed n u) := by
  have hitem := inner_alike (declaration_alike n h)
  have hitems : Production.Alike L (List.Forall₂ (Stmt.Alike L)) (items n) (items n) :=
    Production.Alike.tokensLeft.bind fun ts us hts => blockItems_alike hitem hts .nil
  exact hitems.bind fun ss rs hs => .closing _ _ (.block ht hs)

theorem branched_alike {t u : Token} (ht : t.Alike L u) :
    Production.Alike L (Stmt.Alike L) (branched n t) (branched n u) := by
  refine (Production.Alike.expect _ _).bind fun _ _ _ => ?_
  refine (expressions_alike n).expression.bind fun cond cond' hcond => ?_
  refine (Production.Alike.expect _ _).bind fun _ _ _ => ?_
  refine h.bind fun yes yes' hyes => ?_
  refine (Production.Alike.accept _).bind fun found found' hfound => ?_
  cases hfound with
  | none => exact .pure (.chosen ht hcond hyes)
  | some _ => exact h.bind fun no no' hno => .pure (.branch ht hcond hyes hno)

theorem statementBehind_alike {t u : Token} (ht : t.Alike L u) :
    Production.Alike L (Stmt.Alike L) (statementBehind n t) (statementBehind n u) := by
  have hexpr := (expressions_alike (L := L) n).expression
  unfold statementBehind
  rw [← ht.kind]
  split
  · refine Production.Alike.advance.bind fun _ _ _ => ?_
    exact hexpr.bind fun _ _ he => .closing _ _ (.print ht he)
  · exact Production.Alike.advance.bind fun _ _ _ => enclosed_alike n h ht
  · exact Production.Alike.advance.bind fun _ _ _ => branched_alike n h ht
  · exact hexpr.bind fun _ _ he => .closing _ _ (.expression he)

end Statements

theorem statement_alike (n : Nat) :
    Production.Alike L (Stmt.Alike L) (statement n) (statement n) := by
  induction n with
  | zero => exact fun c d hc => .error (.tooDeep (.syntactic hc.peek .statementTooDeep)) hc
  | succ n ih =>
      rw [statement_succ]
      exact Production.Alike.peek.bind fun t u ht => statementBehind_alike n ih ht

/-! ## Whole texts -/

structure Found.Alike (L : Int → Int → Prop) (R : α → α → Prop) (r r' : α × Cursor) : Prop where
  found : R r.1 r'.1
  cursor : r.2.Alike L r'.2

theorem outermost_alike (limit : Nat) {c d : Cursor} (h : c.Alike L d) :
    Found.Alike L (Option.Rel (Stmt.Alike L)) (outermost limit c) (outermost limit d) := by
  have hrun := declaration_alike limit (statement_alike limit) c d h
  simp only [declaration] at hrun
  unfold outermost
  generalize declarationBody limit (statement limit) c = r,
    declarationBody limit (statement limit) d = r' at hrun
  cases hrun with
  | ok hs hcursor => exact ⟨.some hs, hcursor⟩
  | error hfault hcursor =>
      refine ⟨?_, ?_⟩
      · cases hfault <;> exact .none
      · cases hfault with
        | failed hd | tooDeep hd => exact synchronize_alike (hcursor.report hd)
        | unwinding => exact synchronize_alike hcursor

theorem declarations_alike (limit fuel : Nat) {c d : Cursor} (h : c.Alike L d)
    {done done' : List Stmt} (hdone : List.Forall₂ (Stmt.Alike L) done done') :
    Found.Alike L (List.Forall₂ (Stmt.Alike L)) (declarations limit fuel done c)
      (declarations limit fuel done' d) := by
  induction fuel generalizing c d done done' with
  | zero => exact ⟨List.rel_reverse hdone, h⟩
  | succ fuel ih =>
      by_cases hnil : c.rest = []
      · have hnil' : d.rest = [] := List.forall₂_nil_left_iff.mp (hnil ▸ h.rest)
        rw [declarations_of_nil _ _ _ hnil, declarations_of_nil _ _ _ hnil']
        exact ⟨List.rel_reverse hdone, h⟩
      · have hnil' : d.rest ≠ [] := fun hd =>
          hnil (List.forall₂_nil_right_iff.mp (hd ▸ h.rest))
        have hout := outermost_alike limit h
        have hfound := hout.found
        rw [declarations_succ _ _ _ hnil, declarations_succ _ _ _ hnil']
        refine ih hout.cursor (List.rel_append ?_ hdone)
        generalize (outermost limit c).1 = found, (outermost limit d).1 = found' at hfound
        cases hfound with
        | none => exact .nil
        | some hs => exact .cons hs .nil

theorem program_alike (limit : Nat) {c d : Cursor} (h : c.Alike L d) :
    Found.Alike L (List.Forall₂ (Stmt.Alike L)) (program limit c) (program limit d) := by
  rw [program, program, h.rest.length_eq]
  exact declarations_alike limit _ h .nil

end Parse

end Scribe
