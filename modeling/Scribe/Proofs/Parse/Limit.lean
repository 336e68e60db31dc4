import Scribe.Proofs.Parse.Progress
import Scribe.Token.Scan

/-!
# Raising the limit

The levels of nesting that are left decide nothing but whether a report of excess nesting is made.
Two runs that start with different numbers of levels stay in step, also over errors and what is
skipped behind them, up to the first place where the shorter allowance is used up. There the run
with fewer levels gives up with such a report, and no report is taken back.
-/

namespace Scribe

def Diagnostic.IsTooDeep (d : Diagnostic) : Prop :=
  d.cause = .syntactic .statementTooDeep ∨ d.cause = .syntactic .expressionTooDeep

instance : DecidablePred Diagnostic.IsTooDeep := fun d =>
  inferInstanceAs (Decidable (d.cause = _ ∨ d.cause = _))

namespace Parse

def Cursor.Exceeds (c : Cursor) : Prop := ∃ d ∈ c.reports, d.IsTooDeep

def Fault.Exceeds : Fault → Prop
  | .failed d | .tooDeep d => d.IsTooDeep
  | .unwinding => False

/-- The run has reported excess nesting, or gives up because of it. -/
def Run.Exceeds : Run α → Prop
  | .ok _ c => c.Exceeds
  | .error e c => c.Exceeds ∨ e.Exceeds

/-- Where `p` does not exceed its levels, `q` does the same. -/
structure Within (p q : Production α) : Prop where
  advances : ∀ c, c.finish.isEnd → Advances anything p c
  same : ∀ c, c.finish.isEnd → Run.Exceeds (p c) ∨ q c = p c

namespace Cursor.Exceeds

variable {c c' : Cursor}

theorem ahead {taken : TokenKind → Prop} (h : c.Exceeds) (hahead : Ahead taken c c') :
    c'.Exceeds := by
  obtain ⟨d, hd, hdeep⟩ := h
  obtain ⟨new, hnew⟩ := hahead.reports
  exact ⟨d, by simp [hnew, hd], hdeep⟩

theorem report {d : Diagnostic} (h : c.Exceeds ∨ d.IsTooDeep) : (c.report d).Exceeds := by
  rcases h with ⟨e, he, hdeep⟩ | hdeep
  · exact ⟨e, List.mem_cons_of_mem d he, hdeep⟩
  · exact ⟨d, List.mem_cons_self, hdeep⟩

end Cursor.Exceeds

namespace Run.Exceeds

theorem of_reached {r : Run α} (h : (reached r).Exceeds) : r.Exceeds := by
  cases r with
  | ok a c => exact h
  | error e c => exact .inl h

/-- What is yet to be reported is reported when the declaration is abandoned. -/
theorem abandoned {e : Fault} {c : Cursor} (h : Run.Exceeds (.error e c : Run α)) :
    (abandoned e c).Exceeds := by
  cases e with
  | failed d => exact (Cursor.Exceeds.report h).ahead (synchronize_ahead _)
  | tooDeep d => exact (Cursor.Exceeds.report h).ahead (synchronize_ahead _)
  | unwinding => exact (h.resolve_right id).ahead (synchronize_ahead c)

/-- An item of a block that nests too deeply leaves a report behind, whether it is skipped or
abandons the block. -/
theorem inner {p : Production Stmt} {c : Cursor} (h : Run.Exceeds (p c)) :
    Run.Exceeds (inner p c) := by
  cases hp : p c with
  | ok s c' =>
      rw [hp] at h
      rw [inner_of_ok hp]
      exact h
  | error e c' =>
      rw [hp] at h
      cases e with
      | failed d =>
          rw [inner_of_failed hp]
          exact h.abandoned
      | tooDeep d =>
          rw [inner_of_tooDeep hp]
          exact .inl (Cursor.Exceeds.report h)
      | unwinding =>
          rw [inner_of_unwinding hp]
          exact h

end Run.Exceeds

/-! ## Primitive steps and sequences -/

namespace Within

variable {p q : Production α}

theorem refl (h : ∀ c, c.finish.isEnd → Advances anything p c) : Within p p :=
  ⟨h, fun _ _ => .inr rfl⟩

theorem pure (a : α) : Within (pure a) (pure a) :=
  refl fun c _ => .of_ok rfl (.refl anything c)

theorem peek : Within peek peek := refl fun c _ => .of_ok rfl (.refl anything c)

theorem tokensLeft : Within tokensLeft tokensLeft :=
  refl fun c _ => .of_ok rfl (.refl anything c)

theorem advance : Within advance advance := by
  apply refl
  intro c _
  cases hrest : c.rest with
  | nil => exact .of_ok rfl ⟨⟨[], by simp [hrest], by simp⟩, rfl, ⟨[], rfl⟩⟩
  | cons t rest => exact .of_ok rfl (by rw [hrest]; exact .take hrest trivial)

theorem report (d : Diagnostic) : Within (report d) (report d) :=
  refl fun c _ => .of_ok rfl (.report anything c d)

theorem accept (kinds : TokenKind → Bool) : Within (accept kinds) (accept kinds) :=
  refl fun c _ => .accept (fun _ _ => trivial) c

theorem expect (kind : TokenKind) (cause : SyntaxCause) :
    Within (expect kind cause) (expect kind cause) :=
  refl fun c _ => .expect trivial cause c

theorem fail (cause : SyntaxCause) : Within (fail cause : Production α) (fail cause) :=
  refl fun c _ => .of_failed rfl (.refl anything c)

/-- With no level left, the run that goes on is not looked at. -/
theorem full (q : Production α) : Within (Parse.fail .expressionTooDeep) q :=
  ⟨fun c _ => .of_failed rfl (.refl anything c), fun _ _ => .inl (.inr (.inr rfl))⟩

/-- Two sequences stay in step if their parts do. What the first part has reported is still
reported behind the second one. -/
theorem bind {f g : α → Production β} (h : Within p q) (hf : ∀ a, Within (f a) (g a)) :
    Within (p >>= f) (q >>= g) := by
  have hadvances : ∀ c, c.finish.isEnd → Advances anything (p >>= f) c := fun c hend =>
    (h.advances c hend).bind fun a c' _ hfinish => (hf a).advances c' (hfinish ▸ hend)
  refine ⟨hadvances, fun c hend => ?_⟩
  cases hp : p c with
  | ok a c' =>
      have hahead := (h.advances c hend).ahead_of_ok hp
      have hend' : c'.finish.isEnd := hahead.finish ▸ hend
      rw [bind_of_ok hp]
      rcases h.same c hend with hdeep | hsame
      · rw [hp] at hdeep
        exact .inl (.of_reached (Cursor.Exceeds.ahead hdeep ((hf a).advances c' hend').ahead))
      · rw [bind_of_ok (hsame.trans hp)]
        exact (hf a).same c' hend'
  | error e c' =>
      rw [bind_of_error hp]
      rcases h.same c hend with hdeep | hsame
      · rw [hp] at hdeep
        exact .inl hdeep
      · exact .inr (bind_of_error (hsame.trans hp))

theorem closing (kind : TokenKind) (cause : SyntaxCause) (a : α) :
    Within (do let _ ← Parse.expect kind cause; Pure.pure a)
      (do let _ ← Parse.expect kind cause; Pure.pure a) :=
  (expect kind cause).bind fun _ => pure a

theorem commaSeparated (h : Within p q) (budget : List Token) (done : List α) :
    Within (commaSeparated p budget done) (commaSeparated q budget done) := by
  induction budget generalizing done with
  | nil => exact pure _
  | cons _ budget ih =>
      apply h.bind
      intro a
      apply (accept _).bind
      intro found
      cases found with
      | none => exact pure _
      | some _ => exact ih (a :: done)

end Within

/-! ## Expressions -/

/-- The productions of expressions with `n` levels left are within those with `n'` levels. -/
structure WithinExpressions (n n' : Nat) : Prop where
  expression : Within (expression n) (expression n')
  operand : Within (operand n) (operand n')
  chain : ∀ tier left, Within (chain tier n left) (chain tier n' left)
  chains : ∀ tiers left, Within (chains tiers n left) (chains tiers n' left)

section Expressions

-- A level is taken from both numbers at once.
variable {n n' : Nat} (hbelow : ∀ m, n = m + 1 → ∃ m', n' = m' + 1 ∧ WithinExpressions m m')

theorem within_climb (h : WithinExpressions n n') (tiers : List Tier) :
    Within (climb tiers n) (climb tiers n') :=
  h.operand.bind (h.chains tiers)

theorem within_listed (h : Within (expression n) (expression n')) (bracket : Token) :
    Within (listed n bracket) (listed n' bracket) := by
  apply Within.peek.bind
  intro next
  split
  · exact Within.advance.bind fun _ => .pure _
  · have helements : Within (elements n bracket) (elements n' bracket) :=
      Within.tokensLeft.bind fun ts => h.commaSeparated (bracket :: ts) []
    exact helements.bind fun _ => .closing _ _ _

theorem within_assigned (h : Within (expression n) (expression n')) (target : Expr) :
    Within (assigned n target) (assigned n' target) := by
  apply (Within.accept _).bind
  intro found
  cases found with
  | none => exact .pure target
  | some equals =>
      apply h.bind
      intro value
      cases target
      case reference name => exact .pure _
      all_goals exact (Within.report _).bind fun _ => .pure _

include hbelow

theorem within_prefixed (op : Token) : Within (prefixed n op) (prefixed n' op) := by
  cases n with
  | zero => exact .full _
  | succ m =>
      obtain ⟨m', rfl, hm⟩ := hbelow m rfl
      exact hm.operand.bind fun e => .pure _

theorem within_operand (h : Within (expression n) (expression n')) :
    Within (operand n) (operand n') := by
  rw [operand_eq, operand_eq]
  apply Within.peek.bind
  intro t
  cases opening t with
  | sign => exact Within.advance.bind fun _ => within_prefixed hbelow t
  | constant v => exact Within.advance.bind fun _ => .pure _
  | name => exact Within.advance.bind fun _ => .pure _
  | group => exact Within.advance.bind fun _ => h.bind fun _ => .closing _ _ _
  | array => exact Within.advance.bind fun _ => within_listed h t
  | other => exact .fail _

theorem within_chain (tier : Tier) (left : Expr) :
    Within (chain tier n left) (chain tier n' left) := by
  rw [chain_eq, chain_eq]
  apply (Within.accept _).bind
  intro found
  cases found with
  | none => exact .pure left
  | some op =>
      cases n with
      | zero => exact .full _
      | succ m =>
          obtain ⟨m', rfl, hm⟩ := hbelow m rfl
          exact (within_climb hm _).bind fun right => hm.chain tier _

theorem within_chains (tiers : List Tier) (left : Expr) :
    Within (chains tiers n left) (chains tiers n' left) := by
  induction tiers generalizing left with
  | nil =>
      rw [chains_nil, chains_nil]
      exact .pure left
  | cons tier looser ih =>
      rw [chains_cons, chains_cons]
      exact (within_chain hbelow tier left).bind ih

theorem within_expression : Within (expression n) (expression n') := by
  cases n with
  | zero =>
      rw [expression_zero]
      exact .full _
  | succ m =>
      obtain ⟨m', rfl, hm⟩ := hbelow m rfl
      rw [expression_succ, expression_succ]
      exact (within_climb hm _).bind (within_assigned hm.expression)

end Expressions

theorem withinExpressions {n n' : Nat} (hle : n ≤ n') : WithinExpressions n n' := by
  induction n using Nat.strongRecOn generalizing n' with
  | ind n ih =>
      have hbelow : ∀ m, n = m + 1 → ∃ m', n' = m' + 1 ∧ WithinExpressions m m' := by
        intro m hm
        have hdown : m ≤ n' - 1 := by omega
        exact ⟨n' - 1, by omega, ih m (by omega) hdown⟩
      have hexpr := within_expression hbelow
      exact ⟨hexpr, within_operand hbelow hexpr, within_chain hbelow, within_chains hbelow⟩

/-! ## Statements -/

/-- Skipping what is wrong in a block goes equally far in both runs. -/
theorem within_inner {p q : Production Stmt} (h : Within p q) : Within (inner p) (inner q) := by
  refine ⟨fun c hend => (h.advances c hend).inner, fun c hend => ?_⟩
  rcases h.same c hend with hdeep | hsame
  · exact .inl hdeep.inner
  · exact .inr (by simp only [inner, hsame])

theorem within_blockItems {p q : Production (Option Stmt)} (h : Within p q)
    (budget : List Token) (done : List Stmt) :
    Within (blockItems p budget done) (blockItems q budget done) := by
  induction budget generalizing done with
  | nil => exact .pure _
  | cons b budget ih =>
      rw [blockItems_cons, blockItems_cons]
      apply Within.peek.bind
      intro t
      split
      · exact .pure _
      · apply h.bind
        intro found
        cases found with
        | none => exact ih done
        | some s => exact ih (s :: done)

section Statements

variable {n n' : Nat} (hle : n ≤ n')
include hle

theorem within_declared : Within (declared n) (declared n') := by
  rw [declared_eq, declared_eq]
  apply (Within.expect _ _).bind
  intro name
  apply (Within.accept _).bind
  intro found
  cases found with
  | none => exact .closing _ _ _
  | some _ => exact (withinExpressions hle).expression.bind fun _ => .closing _ _ _

variable (h : Within (statement n) (statement n'))
include h

theorem within_declaration : Within (declaration n) (declaration n') := by
  apply (Within.accept _).bind
  intro found
  cases found with
  | none => exact h
  | some _ => exact within_declared hle

theorem within_enclosed (brace : Token) : Within (enclosed n brace) (enclosed n' brace) := by
  have hitem := within_inner (within_declaration hle h)
  have hitems : Within (items n) (items n') :=
    Within.tokensLeft.bind fun ts => within_blockItems hitem ts []
  exact hitems.bind fun _ => .closing _ _ _

theorem within_branched (keyword : Token) : Within (branched n keyword) (branched n' keyword) := by
  apply (Within.expect _ _).bind
  intro _
  apply (withinExpressions hle).expression.bind
  intro cond
  apply (Within.expect _ _).bind
  intro _
  apply h.bind
  intro yes
  apply (Within.accept _).bind
  intro found
  cases found with
  | none => exact .pure _
  | some _ => exact h.bind fun _ => .pure _

theorem within_statementBehind (t : Token) :
    Within (statementBehind n t) (statementBehind n' t) := by
  have hexpr := (withinExpressions hle).expression
  unfold statementBehind
  split
  · exact Within.advance.bind fun _ => hexpr.bind fun _ => .closing _ _ _
  · exact Within.advance.bind fun _ => within_enclosed hle h t
  · exact Within.advance.bind fun _ => within_branched hle h t
  · exact hexpr.bind fun _ => .closing _ _ _

end Statements

theorem within_statement {n n' : Nat} (hle : n ≤ n') : Within (statement n) (statement n') := by
  induction n generalizing n' with
  | zero => exact ⟨fun c hend => statement_advances 0 c hend, fun c _ => .inl (.inr (.inl rfl))⟩
  | succ m ih =>
      obtain ⟨m', rfl⟩ := Nat.exists_eq_succ_of_ne_zero (n := n') (by omega)
      have hle' : m ≤ m' := by omega
      rw [statement_succ, statement_succ]
      exact Within.peek.bind (within_statementBehind hle' (ih hle'))

/-! ## Whole texts -/

section Programs

variable {limit limit' : Nat} (hle : limit ≤ limit')
include hle

/-- A declaration of the whole text ends alike with both limits, and what is skipped behind it is
the same, unless excess nesting is reported. -/
theorem within_outermost {c : Cursor} (hend : c.finish.isEnd) :
    (outermost limit c).2.Exceeds ∨ outermost limit' c = outermost limit c := by
  have hdeclaration := within_declaration hle (within_statement hle)
  rcases hdeclaration.same c hend with hdeep | hsame
  · left
    cases hrun : declaration limit c with
    | ok s c' =>
        rw [hrun] at hdeep
        rw [outermost_of_ok hrun]
        exact hdeep
    | error e c' =>
        rw [hrun] at hdeep
        rw [outermost_of_error hrun]
        exact hdeep.abandoned
  · right
    cases hrun : declaration limit c with
    | ok s c' => rw [outermost_of_ok hrun, outermost_of_ok (hsame.trans hrun)]
    | error e c' => rw [outermost_of_error hrun, outermost_of_error (hsame.trans hrun)]

theorem within_program {c : Cursor} (hend : c.finish.isEnd) :
    (program limit c).2.Exceeds ∨ program limit' c = program limit c := by
  induction c, hend using program_induction limit with
  | done c _ hnil => exact .inr (by rw [program_of_nil limit hnil, program_of_nil limit' hnil])
  | next c hend hend' hne ih =>
      rw [program_of_ne_nil limit hend hne, program_of_ne_nil limit' hend hne]
      rcases within_outermost hle hend with hdeep | hsame
      · exact .inl (hdeep.ahead (program_ahead limit hend'))
      · rw [hsame]
        rcases ih with hdeep | hrest
        · exact .inl hdeep
        · exact .inr (by rw [hrest])

end Programs

end Parse

/-- If a text is parsed without a report of excess nesting, whatever else is reported, a higher
limit makes no difference: the statements are the same and so are the reports. -/
theorem parse_of_higher_limit {tokens : List Token} {limit limit' : Nat} (hle : limit ≤ limit')
    (hcalm : ∀ d ∈ (parse tokens limit).reports, ¬ d.IsTooDeep) :
    parse tokens limit' = parse tokens limit := by
  have hend : (Parse.start tokens).finish.isEnd := Parse.endMark_isEnd tokens
  rw [Parse.parse_eq] at hcalm
  rw [Parse.parse_eq, Parse.parse_eq]
  rcases Parse.within_program hle hend with ⟨d, hd, hdeep⟩ | hsame
  · exact absurd hdeep (hcalm d (List.mem_reverse.mpr hd))
  · rw [hsame]

def unclosedGroup : List Token := (scan (utf8 "print (nil; let x = nil;")).tokens

/-- The parenthesis is reported alike with three levels and with the usual ones. -/
theorem unclosedGroup_of_higher_limit :
    (parse unclosedGroup 3).stmts.length = 1 ∧ (parse unclosedGroup 3).reports.length = 1 ∧
      (∀ d ∈ (parse unclosedGroup 3).reports, ¬ d.IsTooDeep) ∧
      parse unclosedGroup defaultLimit = parse unclosedGroup 3 := by
  have hreports : (parse unclosedGroup 3).reports =
      [.syntactic ⟨.semicolon, utf8 ";", .null, 1⟩ .expectParenAfterExpression] := by cbv
  have hcalm : ∀ d ∈ (parse unclosedGroup 3).reports, ¬ d.IsTooDeep := by
    rw [hreports]
    simp [Diagnostic.IsTooDeep, Diagnostic.syntactic]
  have hlimit : 3 ≤ defaultLimit := by decide
  exact ⟨by cbv, by rw [hreports, List.length_singleton], hcalm,
    parse_of_higher_limit hlimit hcalm⟩

end Scribe
