import Scribe.Proofs.Machine.Faults
import Scribe.Proofs.Machine.Levels
import Scribe.Proofs.Parse.Shape
import Scribe.Program

/-!
# How high the trees of a text can be

The limit of the parser bounds its recursion, not the trees it makes: the operators of a tier take a
level each and give all of them back, and the whole chain can then stand at the left end of a chain
of the next tier. With one more level, the height grows by a node for the level itself and by as
many nodes as there are levels left, in each of the four tiers. The height is therefore at most
twice the square of the limit, however long the text is.
-/

namespace Scribe

theorem Expr.heights_le {es : List Expr} {h : Nat} (hes : ∀ e ∈ es, e.height ≤ h) :
    Expr.heights es ≤ h := by
  induction es with
  | nil => exact Nat.zero_le h
  | cons e es ih =>
      rw [List.forall_mem_cons] at hes
      exact max_le hes.1 (ih hes.2)

theorem Stmt.heights_le {ss : List Stmt} {h : Nat} (hss : ∀ s ∈ ss, s.height ≤ h) :
    Stmt.heights ss ≤ h := by
  induction ss with
  | nil => exact Nat.zero_le h
  | cons s ss ih =>
      rw [List.forall_mem_cons] at hss
      exact max_le hss.1 (ih hss.2)

namespace Parse

/-- The height of an expression that is parsed with `n` levels left is at most this. -/
def heightBound : (n : Nat) → Nat
  | 0 => 0
  | n + 1 => heightBound n + 4 * n + 1

theorem heightBound_add (n : Nat) : heightBound n + n = 2 * n * n := by
  induction n with
  | zero => rfl
  | succ n ih =>
      have hsquare : 2 * (n + 1) * (n + 1) = 2 * n * n + 4 * n + 2 := by ring
      rw [heightBound]
      omega

abbrev MakesUpTo (h : Nat) (p : Production Expr) : Prop :=
  Makes (fun _ => True) (fun e => e.height ≤ h) p

abbrev MakesStmtUpTo (h : Nat) (p : Production Stmt) : Prop :=
  Makes (fun _ => True) (fun s => s.height ≤ h) p

/-! ## Expressions -/

/-- How high expressions are with `n` levels left. What stands behind `left` adds a level for each
operator of a tier. -/
structure Bounded (n : Nat) : Prop where
  expression : MakesUpTo (heightBound n) (expression n)
  operand : MakesUpTo (heightBound n + 1) (operand n)
  chain : ∀ (tier : Tier) (left : Expr) (h : Nat), left.height ≤ h → heightBound n < h →
    MakesUpTo (h + n) (chain tier n left)
  chains : ∀ (tiers : List Tier) (left : Expr) (h : Nat), left.height ≤ h → heightBound n < h →
    MakesUpTo (h + tiers.length * n) (chains tiers n left)

section Expressions

variable {n : Nat}

theorem Bounded.climb (h : Bounded n) (tiers : List Tier) :
    MakesUpTo (heightBound n + 1 + tiers.length * n) (climb tiers n) :=
  h.operand.bind fun first hfirst => h.chains tiers first _ hfirst (Nat.lt_succ_self _)

theorem bounded_prefixed (hlow : ∀ m, m < n → Bounded m) (op : Token) :
    MakesUpTo (heightBound n + 1) (prefixed n op) := by
  cases n with
  | zero => exact .fail _
  | succ m =>
      apply (hlow m (Nat.lt_succ_self m)).operand.bind
      intro e he
      apply Makes.pure
      rw [Expr.height, heightBound]
      omega

theorem bounded_listed (hexpr : MakesUpTo (heightBound n) (expression n)) (bracket : Token) :
    MakesUpTo (heightBound n + 1) (listed n bracket) := by
  apply Makes.peek.bind
  intro next _
  split
  · exact Makes.advance.bind fun _ _ => .pure (Nat.le_add_left 1 _)
  · have helements : Makes (fun _ => True) (fun es => ∀ e ∈ es, e.height ≤ heightBound n)
        (elements n bracket) :=
      Makes.tokensLeft.bind fun ts _ => hexpr.commaSeparated _ nofun
    exact helements.bind fun es hes => .closing _ _ (Nat.succ_le_succ (Expr.heights_le hes))

theorem bounded_operand (hlow : ∀ m, m < n → Bounded m)
    (hexpr : MakesUpTo (heightBound n) (expression n)) :
    MakesUpTo (heightBound n + 1) (operand n) := by
  have hleaf : 1 ≤ heightBound n + 1 := Nat.le_add_left 1 _
  rw [operand_eq]
  apply Makes.peek.bind
  intro t _
  cases opening t with
  | sign => exact Makes.advance.bind fun _ _ => bounded_prefixed hlow t
  | constant v => exact Makes.advance.bind fun _ _ => .pure hleaf
  | name => exact Makes.advance.bind fun _ _ => .pure hleaf
  | group =>
      apply Makes.advance.bind
      intro _ _
      exact hexpr.bind fun e he => .closing _ _ (Nat.le_succ_of_le he)
  | array => exact Makes.advance.bind fun _ _ => bounded_listed hexpr t
  | other => exact .fail _

/-- The right side of an operator is lower than the bound, so the chain grows by one node. -/
theorem bounded_chain (hlow : ∀ m, m < n → Bounded m) (tier : Tier) {left : Expr} {h : Nat}
    (hleft : left.height ≤ h) (hroom : heightBound n < h) :
    MakesUpTo (h + n) (chain tier n left) := by
  rw [chain_eq]
  apply (Makes.accept _).bind
  intro found _
  cases found with
  | none => exact .pure (Nat.le_add_right_of_le hleft)
  | some op =>
      cases n with
      | zero => exact .fail _
      | succ m =>
          have hm := hlow m (Nat.lt_succ_self m)
          have htiers : tier.tighter.length ≤ 3 := by cases tier <;> decide
          have hsides : tier.tighter.length * m ≤ 3 * m := Nat.mul_le_mul_right m htiers
          rw [heightBound] at hroom
          apply (hm.climb tier.tighter).bind
          intro right hright
          have hbinary : (Expr.binary left op right).height ≤ h + 1 := by
            rw [Expr.height]
            omega
          apply (hm.chain tier (.binary left op right) (h + 1) hbinary (by omega)).imp
          intro e he
          omega

theorem bounded_chains (hlow : ∀ m, m < n → Bounded m) (tiers : List Tier) {left : Expr} {h : Nat}
    (hleft : left.height ≤ h) (hroom : heightBound n < h) :
    MakesUpTo (h + tiers.length * n) (chains tiers n left) := by
  induction tiers generalizing left h with
  | nil =>
      rw [chains_nil]
      exact .pure (Nat.le_add_right_of_le hleft)
  | cons tier looser ih =>
      have hsum : h + (tier :: looser).length * n = h + n + looser.length * n := by
        rw [List.length_cons]
        ring
      rw [chains_cons, hsum]
      apply (bounded_chain hlow tier hleft hroom).bind
      intro e he
      exact ih he (by omega)

theorem bounded_assigned {h : Nat} (hexpr : MakesUpTo (heightBound n) (expression n))
    (hroom : heightBound n < h) {target : Expr} (htarget : target.height ≤ h) :
    MakesUpTo h (assigned n target) := by
  apply (Makes.accept _).bind
  intro found _
  cases found with
  | none => exact .pure htarget
  | some equals =>
      apply hexpr.bind
      intro value hvalue
      cases target
      case reference name => exact .pure (Nat.lt_of_le_of_lt hvalue hroom)
      all_goals exact (Makes.report (.mk trivial _)).bind fun _ _ => .pure htarget

theorem bounded_expression (hlow : ∀ m, m < n → Bounded m) :
    MakesUpTo (heightBound n) (expression n) := by
  cases n with
  | zero =>
      rw [expression_zero]
      exact .fail _
  | succ m =>
      have hm := hlow m (Nat.lt_succ_self m)
      have hsum : heightBound m + 1 + Tier.all.length * m = heightBound (m + 1) := by
        rw [heightBound, show Tier.all.length = 4 from rfl]
        omega
      have hroom : heightBound m < heightBound (m + 1) := by
        rw [heightBound]
        omega
      rw [expression_succ]
      apply (hm.climb Tier.all).bind
      intro target htarget
      exact bounded_assigned hm.expression hroom (hsum ▸ htarget)

end Expressions

theorem bounded (n : Nat) : Bounded n := by
  induction n using Nat.strongRecOn with
  | ind n ih =>
      have hexpr := bounded_expression ih
      exact ⟨hexpr, bounded_operand ih hexpr, fun tier _ _ hleft => bounded_chain ih tier hleft,
        fun tiers _ _ hleft => bounded_chains ih tiers hleft⟩

/-! ## Statements -/

/-- A node for a declaration stands above its expression, and a node for a block or a branch takes
a level of its own. -/
theorem bounded_declared (n : Nat) : MakesStmtUpTo (heightBound n + 1) (declared n) := by
  rw [declared_eq]
  apply (Makes.expect _ _).bind
  intro name _
  apply (Makes.accept _).bind
  intro found _
  cases found with
  | none => exact .closing _ _ (Nat.le_add_left 1 _)
  | some _ => exact (bounded n).expression.bind fun _ he => .closing _ _ (Nat.succ_le_succ he)

section Statements

variable {n : Nat} (h : MakesStmtUpTo (heightBound n + 1) (statement n))
include h

theorem bounded_declaration : MakesStmtUpTo (heightBound n + 1) (declaration n) := by
  apply (Makes.accept _).bind
  intro found _
  cases found with
  | none => exact h
  | some _ => exact bounded_declared n

theorem bounded_enclosed (brace : Token) :
    MakesStmtUpTo (heightBound n + 2) (enclosed n brace) :=
  (makes_items (bounded_declaration h)).bind fun _ hss =>
    .closing _ _ (Nat.succ_le_succ (Stmt.heights_le hss))

theorem bounded_branched (keyword : Token) :
    MakesStmtUpTo (heightBound n + 2) (branched n keyword) := by
  apply (Makes.expect _ _).bind
  intro _ _
  apply (bounded n).expression.bind
  intro cond hcond
  apply (Makes.expect _ _).bind
  intro _ _
  apply h.bind
  intro yes hyes
  have hbranch : ∀ no : Stmt, no.height ≤ heightBound n + 1 →
      (Stmt.branch keyword cond yes no).height ≤ heightBound n + 2 := by
    intro no hno
    rw [Stmt.height]
    omega
  apply (Makes.accept _).bind
  intro found _
  cases found with
  | none => exact .pure (hbranch .absent (Nat.zero_le _))
  | some _ => exact h.bind fun no hno => .pure (hbranch no hno)

theorem bounded_statementBehind (t : Token) :
    MakesStmtUpTo (heightBound n + 2) (statementBehind n t) := by
  have hexpr := (bounded n).expression
  unfold statementBehind
  split
  · apply Makes.advance.bind
    intro _ _
    exact hexpr.bind fun e he => .closing _ _ (Nat.le_succ_of_le (Nat.succ_le_succ he))
  · exact Makes.advance.bind fun _ _ => bounded_enclosed h t
  · exact Makes.advance.bind fun _ _ => bounded_branched h t
  · exact hexpr.bind fun e he => .closing _ _ (Nat.le_succ_of_le (Nat.succ_le_succ he))

end Statements

theorem bounded_statement (n : Nat) : MakesStmtUpTo (heightBound n + 1) (statement n) := by
  induction n with
  | zero => exact fun c hc => .error (.mk trivial .statementTooDeep) hc
  | succ n ih =>
      rw [statement_succ]
      apply Makes.peek.bind
      intro t _
      apply (bounded_statementBehind ih t).imp
      intro s hs
      rw [heightBound]
      omega

end Parse

theorem parse_height_le (tokens : List Token) {limit : Nat} (hlimit : 1 ≤ limit) :
    ∀ s ∈ (parse tokens limit).stmts, s.height ≤ 2 * limit * limit := by
  have hdeclaration := Parse.bounded_declaration (Parse.bounded_statement limit)
  have hstmts : ∀ s ∈ (parse tokens limit).stmts, s.height ≤ Parse.heightBound limit + 1 :=
    (parse_makes limit (fun _ _ => trivial) trivial hdeclaration).1
  intro s hs
  have hheight := hstmts s hs
  have hbound := Parse.heightBound_add limit
  omega

/-! ## Runs -/

/-- A statement that is not higher than the limit is executed without excess nesting, and gives its
levels back. -/
theorem execute_within_height (o : Options) (s : Stmt) {m : Machine}
    (hroom : m.depth + s.height ≤ o.limit) :
    ¬ Upshot.TooDeep (execute o s m) ∧ (Upshot.machine (execute o s m)).depth = m.depth := by
  by_cases hlive : o.cancelled = true
  · rw [execute_cancelled hlive]
    constructor
    · rintro ⟨line, m', h⟩
      cases h
    · rfl
  · have huses := execute_uses (o := o) (by simpa using hlive) s m
    have hlevels := s.levels_le_height o m
    have hrun : execute o s m = s.freely o m := huses.enough o.limit (by omega)
    rw [hrun]
    exact ⟨huses.settled, huses.depth⟩

theorem executeEach_within_height {o : Options} {ss : List Stmt} {T : Token → Prop}
    (hmade : ∀ s ∈ ss, s.MadeOf T) {p : Interpreter.Progress}
    (hroom : ∀ s ∈ ss, p.machine.depth + s.height ≤ o.limit)
    (hcalm : ∀ d ∈ p.faults, d.cause ≠ .runtime .nestingTooDeep) :
    ∀ d ∈ (Interpreter.executeEach o ss p).faults, d.cause ≠ .runtime .nestingTooDeep := by
  induction ss generalizing p with
  | nil => exact hcalm
  | cons s ss ih =>
      rw [List.forall_mem_cons] at hmade hroom
      obtain ⟨hsettled, hdepth⟩ := execute_within_height o s hroom.1
      rw [Interpreter.executeEach]
      cases hrun : execute o s p.machine with
      | ok _ m =>
          rw [hrun] at hdepth
          have hm : m.depth = p.machine.depth := hdepth
          exact ih hmade.2 (fun r hr => hm ▸ hroom.2 r hr) hcalm
      | error stop m =>
          rw [hrun] at hdepth hsettled
          have hm : m.depth = p.machine.depth := hdepth
          cases stop with
          | fault d =>
              have hd : d.cause ≠ .runtime .nestingTooDeep := by
                obtain ⟨line, cause⟩ := execute_faults o hmade.1 hrun
                rintro ⟨⟩
                exact hsettled ⟨line, m, rfl⟩
              exact ih hmade.2 (fun r hr => hm ▸ hroom.2 r hr)
                (List.forall_mem_cons.mpr ⟨hd, hcalm⟩)
          | cancelled => exact hcalm
          | lineless => exact hcalm

/-- Under a limit that is at least one, no path into a statement of a text has more nodes than twice
the square of the limit. A run that is granted as many levels executes the statements, each alone
or all of them in order, without a fault for excess nesting. -/
theorem ofSource_within_height (source : Bytes) {limit : Nat} (hlimit : 1 ≤ limit) :
    let stmts := (Program.ofSource source limit).stmts
    (∀ s ∈ stmts, s.height ≤ 2 * limit * limit) ∧
      ∀ o : Options, 2 * limit * limit ≤ o.limit → ∀ m : Machine, m.depth = 0 →
        (∀ s ∈ stmts, ¬ Upshot.TooDeep (execute o s m)) ∧
        ∀ d ∈ (Interpreter.executeEach o stmts ⟨m, []⟩).faults,
          d.cause ≠ .runtime .nestingTooDeep := by
  intro stmts
  have hheight : ∀ s ∈ stmts, s.height ≤ 2 * limit * limit :=
    parse_height_le (scan source).tokens hlimit
  have hmade : ∀ s ∈ stmts, s.MadeOf fun _ => True :=
    parse_made limit (fun _ _ => trivial) trivial
  refine ⟨hheight, fun o ho m hdepth => ?_⟩
  have hroom : ∀ s ∈ stmts, m.depth + s.height ≤ o.limit := by
    intro s hs
    have hs := hheight s hs
    omega
  exact ⟨fun s hs => (execute_within_height o s (hroom s hs)).1,
    executeEach_within_height hmade hroom (List.forall_mem_nil _)⟩

/-- The operators of all tiers, each at the left end of the next. -/
def fourTiers : Bytes := utf8 "let x = [nil] * nil + nil < nil == nil;"

/-- Two levels suffice for a statement that is seven nodes high, and eight for its run. -/
theorem fourTiers_within_height :
    let stmts := (Program.ofSource fourTiers 2).stmts
    let m := (Interpreter.ofOptions { limit := 8 }).machine
    stmts.map Stmt.height = [7] ∧ (∀ s ∈ stmts, ¬ Upshot.TooDeep (execute { limit := 8 } s m)) ∧
      ∀ d ∈ (Interpreter.executeEach { limit := 8 } stmts ⟨m, []⟩).faults,
        d.cause ≠ .runtime .nestingTooDeep := by
  intro stmts m
  have hheights : (Program.ofSource fourTiers 2).stmts.map Stmt.height = [7] := by cbv
  obtain ⟨-, hruns⟩ := ofSource_within_height fourTiers (Nat.le_succ 1)
  obtain ⟨hsingle, hall⟩ := hruns { limit := 8 } (Nat.le_refl 8) m rfl
  exact ⟨hheights, hsingle, hall⟩

end Scribe
