import Scribe.Interpreter
import Scribe.Proofs.Lines.Basic
import Scribe.Proofs.Machine.Step

/-!
# Running on other lines

Whole trees that differ in their lines alone do the same to the scopes and to the output, and their
faults differ in their lines alone. Whole trees lead to no fault that only trees built by hand lead
to, and always have a line when they are asked for it.
-/

namespace Scribe

variable {L : Int → Int → Prop}

/-- The log apart, the machines are the same. -/
structure Machine.Same (m n : Machine) : Prop where
  scopes : m.scopes = n.scopes
  out : m.out = n.out
  depth : m.depth = n.depth

/-- Neither run is called off or asks for a line where there is none. -/
inductive Upshot.Alike (L : Int → Int → Prop) : Upshot α → Upshot α → Prop
  | ok (a : α) {m n : Machine} (hsame : m.Same n) : Alike L (.ok a m) (.ok a n)
  | fault {d e : Diagnostic} {m n : Machine} (hfault : d.Alike L .runtime e) (hsame : m.Same n) :
      Alike L (.error (.fault d) m) (.error (.fault e) n)

/-- From machines that are the same, two actions end in the same way. -/
def Action.Alike (L : Int → Int → Prop) (p q : Action α) : Prop :=
  ∀ m n : Machine, m.Same n → Upshot.Alike L (p m) (q n)

theorem Upshot.Alike.andThen {r r' : Upshot α} (h : Upshot.Alike L r r') {f g : Machine → Machine}
    (hfg : ∀ m n : Machine, m.Same n → (f m).Same (g n)) :
    Upshot.Alike L (Upshot.andThen f r) (Upshot.andThen g r') := by
  cases h with
  | ok a hsame => exact .ok a (hfg _ _ hsame)
  | fault hfault hsame => exact .fault hfault (hfg _ _ hsame)

namespace Action.Alike

theorem pure (a : α) : Action.Alike L (pure a) (pure a) := fun _ _ hm => .ok a hm

theorem bind {p q : Action α} {f g : α → Action β} (hp : Action.Alike L p q)
    (hf : ∀ a, Action.Alike L (f a) (g a)) : Action.Alike L (p >>= f) (q >>= g) := by
  intro m n hm
  have hrun := hp m n hm
  simp only [Bind.bind, EStateM.bind]
  generalize p m = r, q n = r' at hrun
  cases hrun with
  | ok a hsame => exact hf a _ _ hsame
  | fault hfault hsame => exact .fault hfault hsame

theorem fault {line line' : Int} (hline : L line line') {cause : RuntimeCause}
    (hcause : cause.isInternal = false) :
    Action.Alike L (Action.fault line cause : Action α) (Action.fault line' cause) :=
  fun _ _ hm => .fault (.runtime hline hcause) hm

theorem nested {limit : Nat} {line line' : Int} (hline : L line line') {p q : Action α}
    (hp : Action.Alike L p q) :
    Action.Alike L (Action.nested limit line p) (Action.nested limit line' q) := by
  intro m n hm
  by_cases hroom : m.depth < limit
  · rw [nested_eq line p hroom, nested_eq line' q (hm.depth ▸ hroom)]
    have hdeeper : m.deeper.Same n.deeper := ⟨hm.scopes, hm.out, congrArg (· + 1) hm.depth⟩
    exact (hp _ _ hdeeper).andThen fun m n h => ⟨h.scopes, h.out, congrArg (· - 1) h.depth⟩
  · have hroom' : ¬ n.depth < limit := hm.depth ▸ hroom
    simp only [Action.nested, if_neg hroom, if_neg hroom']
    exact Action.Alike.fault hline rfl m n hm

theorem inOwnScope {p q : Action α} (hp : Action.Alike L p q) :
    Action.Alike L (Action.inOwnScope p) (Action.inOwnScope q) := by
  intro m n hm
  have hinside : Machine.Same { m with scopes := m.scopes.enclose }
      { n with scopes := n.scopes.enclose } :=
    ⟨congrArg Scopes.enclose hm.scopes, hm.out, hm.depth⟩
  rw [inOwnScope_eq, inOwnScope_eq]
  exact (hp _ _ hinside).andThen fun m n h => ⟨congrArg Scopes.leave h.scopes, h.out, h.depth⟩

theorem note (e f : LogEvent) : Action.Alike L (Action.note e) (Action.note f) :=
  fun _ _ hm => .ok () ⟨hm.scopes, hm.out, hm.depth⟩

theorem get {t u : Token} (h : t.Alike L u) : Action.Alike L (Action.get t) (Action.get u) := by
  intro m n hm
  simp only [Action.get, ← h.lexeme, ← hm.scopes]
  cases m.scopes.get? t.lexeme with
  | none => exact .fault (.runtime h.line rfl) hm
  | some v => exact .ok v hm

theorem define (name : Bytes) (v : Value) :
    Action.Alike L (Action.define name v) (Action.define name v) := by
  intro m n hm
  exact .ok () ⟨congrArg (Scopes.define · name v) hm.scopes, hm.out, hm.depth⟩

theorem assign (name : Bytes) (v : Value) :
    Action.Alike L (Action.assign name v) (Action.assign name v) := by
  intro m n hm
  exact .ok () ⟨congrArg (Scopes.assign · name v) hm.scopes, hm.out, hm.depth⟩

theorem print {line line' : Int} (hline : L line line') (text : Bytes) :
    Action.Alike L (Action.print line text) (Action.print line' text) := by
  intro m n hm
  simp only [Action.print, ← hm.out]
  rcases m.out.write (text ++ [Bytes.lineFeed]) with ⟨_ | ⟨⟨⟩⟩, out⟩
  · exact .fault (.runtime hline rfl) ⟨hm.scopes, rfl, hm.depth⟩
  · exact .ok () ⟨hm.scopes, rfl, hm.depth⟩

theorem ofExcept {line line' : Int} (hline : L line line') {x : Except RuntimeCause Value}
    (hx : ∀ cause, x = .error cause → cause.isInternal = false) :
    Action.Alike L (Action.ofExcept line x) (Action.ofExcept line' x) := by
  cases x with
  | ok v => exact pure v
  | error cause => exact Action.Alike.fault hline (hx cause rfl)

end Action.Alike

/-! ## Operators of the grammar -/

/-- A prefix operator fails on an operand that is not a number, and on nothing else. -/
theorem unary_error {t : Token} (hsign : t.kind = .bang ∨ t.kind = .minus) {v : Value}
    {cause : RuntimeCause} (h : Value.unary t v = .error cause) :
    cause = .operandNotNumber t.kind := by
  rcases hsign with hkind | hkind
  · simp only [Value.unary, hkind] at h
    cases h
  · cases v <;> simp only [Value.unary, hkind] at h <;> cases h <;> rw [hkind]

theorem plus_error {a b : Value} {cause : RuntimeCause} (h : Value.plus a b = .error cause) :
    cause = .operandsNotAddable := by
  unfold Value.plus at h
  split at h <;> cases h
  rfl

theorem arithmetic_defined {t : Token} {tier : Parse.Tier} (htier : tier.operators t.kind = true)
    (hkind : t.kind ≠ .equalEqual ∧ t.kind ≠ .bangEqual ∧ t.kind ≠ .plus) (a b : Float) :
    ∃ v, Value.arithmetic t a b = .ok v := by
  unfold Value.arithmetic
  split <;> try exact ⟨_, rfl⟩
  cases tier <;> simp_all [Parse.Tier.operators]

/-- An operator between two values fails on its operands alone. -/
theorem binary_error {t : Token} {tier : Parse.Tier} (htier : tier.operators t.kind = true)
    {a b : Value} {cause : RuntimeCause} (h : Value.binary t a b = .error cause) :
    cause = .operandsNotAddable ∨ cause = .operandsNotNumbers t.kind := by
  unfold Value.binary at h
  split at h
  · cases h
  · cases h
  · exact .inl (plus_error h)
  · next hequal hbang hplus =>
      split at h
      · next a b =>
          obtain ⟨v, hv⟩ := arithmetic_defined htier ⟨hequal, hbang, hplus⟩ a b
          rw [hv] at h
          cases h
      · cases h
        exact .inr rfl

theorem unary_scripted {t : Token} (hsign : t.kind.isSign = true) {v : Value}
    {cause : RuntimeCause} (h : Value.unary t v = .error cause) : cause.isInternal = false := by
  simp only [TokenKind.isSign, Bool.or_eq_true, beq_iff_eq] at hsign
  rw [unary_error hsign h]
  rfl

theorem binary_scripted {t : Token} {tier : Parse.Tier} (htier : tier.operators t.kind = true)
    {a b : Value} {cause : RuntimeCause} (h : Value.binary t a b = .error cause) :
    cause.isInternal = false := by
  rcases binary_error htier h with rfl | rfl <;> rfl

theorem unary_alike {t u : Token} (h : t.Alike L u) (v : Value) :
    Value.unary t v = Value.unary u v := by
  simp only [Value.unary, h.kind, h.lexeme]

theorem binary_alike {t u : Token} (h : t.Alike L u) (a b : Value) :
    Value.binary t a b = Value.binary u a b := by
  simp only [Value.binary, Value.arithmetic, h.kind, h.lexeme]

/-! ## Expressions -/

mutual

theorem evaluate_alike (o : Options) : (e : Expr) → {f : Expr} → e.Alike L f →
    Action.Alike L (evaluate o e) (evaluate o f)
  | .absent, _, h => by cases h
  | .literal v _, _, h => by
      cases h with
      | literal _ hline =>
          rw [evaluate, evaluate]
          exact .nested hline (.pure v)
  | .reference name, _, h => by
      cases h with
      | reference hname =>
          rw [evaluate, evaluate]
          exact .nested hname.line (.get hname)
  | .assign name e, _, h => by
      cases h with
      | assign hname hvalue =>
          rw [evaluate, evaluate, ← hname.lexeme]
          refine .nested hname.line ((evaluate_alike o e hvalue).bind fun v => ?_)
          exact (Action.Alike.assign _ v).bind fun _ => .pure v
  | .unary op e, _, h => by
      cases h with
      | unary hop hsign hoperand =>
          rw [evaluate, evaluate]
          refine .nested hop.line ((evaluate_alike o e hoperand).bind fun v => ?_)
          rw [← unary_alike hop]
          exact .ofExcept hop.line fun _ => unary_scripted hsign
  | .binary left op right, _, h => by
      cases h with
      | binary hleft hop htier hright =>
          rw [evaluate, evaluate]
          refine .nested hop.line ((evaluate_alike o left hleft).bind fun a => ?_)
          refine (evaluate_alike o right hright).bind fun b => ?_
          rw [← binary_alike hop]
          exact .ofExcept hop.line fun _ => binary_scripted htier
  | .array bracket elems, _, h => by
      cases h with
      | array hbracket helems =>
          rw [evaluate, evaluate]
          refine .nested hbracket.line ?_
          split
          · exact (evaluateAll_alike o elems helems).bind fun vs => .pure _
          · exact .pure _

theorem evaluateAll_alike (o : Options) : (es : List Expr) → {fs : List Expr} →
    List.Forall₂ (Expr.Alike L) es fs → Action.Alike L (evaluateAll o es) (evaluateAll o fs)
  | [], _, h => by
      cases h
      exact .pure []
  | e :: es, _, h => by
      cases h with
      | cons he hes =>
          rw [evaluateAll, evaluateAll]
          refine (evaluate_alike o e he).bind fun v => ?_
          exact (evaluateAll_alike o es hes).bind fun vs => .pure _

end

/-! ## Statements -/

mutual

theorem execute_alike {o : Options} (hlive : o.cancelled = false) : (s : Stmt) → {r : Stmt} →
    s.Alike L r → Action.Alike L (execute o s) (execute o r)
  | .absent, _, h => by cases h
  | .print keyword e, _, h => by
      cases h with
      | print hkeyword hexpr =>
          rw [execute_print hlive, execute_print hlive]
          refine .nested hkeyword.line ((Action.Alike.note _ _).bind fun _ => ?_)
          exact (evaluate_alike o e hexpr).bind fun v => .print hkeyword.line _
  | .expression e, _, h => by
      cases h with
      | expression hexpr =>
          rw [execute_expression hlive hexpr.ne_absent.1,
            execute_expression hlive hexpr.ne_absent.2]
          refine .nested hexpr.line ((Action.Alike.note _ _).bind fun _ => ?_)
          exact (evaluate_alike o e hexpr).bind fun _ => .pure ()
  | .declare name init, _, h => by
      cases h with
      | declared hname =>
          rw [execute_declare_absent hlive, execute_declare_absent hlive, ← hname.lexeme]
          exact .nested hname.line ((Action.Alike.note _ _).bind fun _ => .define _ _)
      | initialized hname hinit =>
          rw [execute_declare hlive _ hinit.ne_absent.1, execute_declare hlive _ hinit.ne_absent.2,
            ← hname.lexeme]
          refine .nested hname.line ((Action.Alike.note _ _).bind fun _ => ?_)
          exact (evaluate_alike o init hinit).bind fun v => .define _ v
  | .block brace stmts, _, h => by
      cases h with
      | block hbrace hstmts =>
          have hall := executeAll_alike hlive stmts hstmts
          rw [execute_block hlive, execute_block hlive]
          refine .nested hbrace.line ((Action.Alike.note _ _).bind fun _ => ?_)
          split
          · exact .inOwnScope hall
          · exact hall
  | .branch keyword cond yes no, _, h => by
      rw [execute_branch hlive]
      cases h with
      | chosen hkeyword hcond hyes =>
          rw [execute_branch hlive]
          refine .nested hkeyword.line ((Action.Alike.note _ _).bind fun _ => ?_)
          refine (evaluate_alike o cond hcond).bind fun v => ?_
          unfold chosen
          split
          · exact execute_alike hlive yes hyes
          · exact .pure ()
      | branch hkeyword hcond hyes hno =>
          rw [execute_branch hlive]
          refine .nested hkeyword.line ((Action.Alike.note _ _).bind fun _ => ?_)
          refine (evaluate_alike o cond hcond).bind fun v => ?_
          unfold chosen
          rw [hno.isAbsent.1, hno.isAbsent.2]
          split
          · exact execute_alike hlive yes hyes
          · exact execute_alike hlive no hno

theorem executeAll_alike {o : Options} (hlive : o.cancelled = false) : (ss : List Stmt) →
    {rs : List Stmt} → List.Forall₂ (Stmt.Alike L) ss rs →
    Action.Alike L (executeAll o ss) (executeAll o rs)
  | [], _, h => by
      cases h
      exact .pure ()
  | s :: ss, _, h => by
      cases h with
      | cons hs hss =>
          rw [executeAll, executeAll]
          exact (execute_alike hlive s hs).bind fun _ => executeAll_alike hlive ss hss

end

/-! ## Scripts -/

namespace Interpreter

structure Progress.Alike (L : Int → Int → Prop) (p q : Progress) : Prop where
  machine : p.machine.Same q.machine
  faults : List.Forall₂ (Diagnostic.Alike L .runtime) p.faults q.faults

theorem Progress.Alike.note {p q : Progress} (h : Progress.Alike L p q) (e f : LogEvent) :
    Progress.Alike L (p.note e) (q.note f) :=
  ⟨⟨h.machine.scopes, h.machine.out, h.machine.depth⟩, h.faults⟩

theorem executeEach_alike (o : Options) {ss rs : List Stmt}
    (hs : List.Forall₂ (Stmt.Alike L) ss rs) {p q : Progress} (h : Progress.Alike L p q) :
    Progress.Alike L (executeEach o ss p) (executeEach o rs q) := by
  induction hs generalizing p q with
  | nil => exact h
  | @cons s r ss rs hs _ ih =>
      rw [executeEach, executeEach]
      by_cases hlive : o.cancelled = true
      · rw [execute_cancelled hlive, execute_cancelled hlive]
        exact h.note _ _
      · have hrun := execute_alike (by simpa using hlive) s hs _ _ h.machine
        generalize Scribe.execute o s p.machine = r₁, Scribe.execute o r q.machine = r₂ at hrun
        cases hrun with
        | ok _ hsame => exact ih ⟨hsame, h.faults⟩
        | fault hfault hsame => exact ih (.note ⟨hsame, .cons hfault h.faults⟩ _ _)

/-- Faults of whole statements do not keep those behind them from being executed. -/
theorem executeEach_append {o : Options} (hlive : o.cancelled = false) {ss : List Stmt}
    (hs : List.Forall₂ (Stmt.Alike L) ss ss) (rs : List Stmt) (p : Progress) :
    executeEach o (ss ++ rs) p = executeEach o rs (executeEach o ss p) := by
  induction ss generalizing p with
  | nil => rfl
  | cons s ss ih =>
      cases hs with
      | cons hs hss =>
          have hrun := execute_alike hlive s hs p.machine p.machine ⟨rfl, rfl, rfl⟩
          rw [List.cons_append, executeEach, executeEach]
          generalize Scribe.execute o s p.machine = r at hrun
          cases hrun with
          | ok _ _ => exact ih hss _
          | fault _ _ => exact ih hss _

/-- Earlier faults stay, and nothing depends on them. -/
theorem executeEach_faults (o : Options) (ss : List Stmt) (m : Machine)
    (faults earlier : List Diagnostic) :
    executeEach o ss ⟨m, faults ++ earlier⟩ =
      { executeEach o ss ⟨m, faults⟩ with
        faults := (executeEach o ss ⟨m, faults⟩).faults ++ earlier } := by
  induction ss generalizing m faults with
  | nil => rfl
  | cons s ss ih =>
      simp only [executeEach]
      cases Scribe.execute o s m with
      | ok a n => exact ih n faults
      | error stop n =>
          cases stop with
          | fault d => exact ih _ (d :: faults)
          | cancelled => rfl
          | lineless => rfl

theorem executeEach_behind (o : Options) (ss : List Stmt) (p : Progress) :
    executeEach o ss p =
      { executeEach o ss ⟨p.machine, []⟩ with
        faults := (executeEach o ss ⟨p.machine, []⟩).faults ++ p.faults } :=
  executeEach_faults o ss p.machine [] p.faults

end Interpreter

end Scribe
