import Scribe.Interpreter
import Scribe.Proofs.Lines.Run
import Scribe.Proofs.Parse.Shape

/-!
# What a fault quotes

A fault of a script quotes the name of a variable as the script spells it, the name of an operator,
or the reason for which a sink refused a line. It quotes no value and no text of a string.
-/

namespace Scribe

variable {T : Token → Prop}

/-- The causes that running trees of tokens with the property `T` can lead to. -/
inductive RuntimeCause.ArisesFrom (T : Token → Prop) : RuntimeCause → Prop where
  | nestingTooDeep : ArisesFrom T .nestingTooDeep
  | undefinedVariable {t : Token} (ht : T t) (hkind : t.kind = .identifier) :
      ArisesFrom T (.undefinedVariable t.lexeme)
  | operandNotNumber (op : TokenKind) : ArisesFrom T (.operandNotNumber op)
  | operandsNotNumbers (op : TokenKind) : ArisesFrom T (.operandsNotNumbers op)
  | operandsNotAddable : ArisesFrom T .operandsNotAddable
  | outputFailed (reason : Bytes) : ArisesFrom T (.outputFailed reason)

/-- A fault of trees of tokens with the property `T`. -/
inductive Diagnostic.FaultOf (T : Token → Prop) : Diagnostic → Prop where
  | mk (line : Int) {cause : RuntimeCause} (hcause : cause.ArisesFrom T) :
      FaultOf T (.runtime line cause)

/-- Every fault that the action ends with comes from tokens with the property `T`. -/
def Action.FaultsFrom (T : Token → Prop) (p : Action α) : Prop :=
  ∀ ⦃m : Machine⦄ ⦃d : Diagnostic⦄ ⦃m' : Machine⦄, p m = .error (.fault d) m' → d.FaultOf T

/-! ## Actions -/

namespace Action.FaultsFrom

theorem of_ok {p : Action α} (h : ∀ m, ∃ a m', p m = .ok a m') : Action.FaultsFrom T p := by
  intro m d m' hrun
  obtain ⟨a, n, hok⟩ := h m
  rw [hok] at hrun
  cases hrun

theorem pure (a : α) : Action.FaultsFrom T (pure a : Action α) := of_ok fun m => ⟨a, m, rfl⟩

theorem fault (line : Int) {cause : RuntimeCause} (hcause : cause.ArisesFrom T) :
    Action.FaultsFrom T (Action.fault line cause : Action α) := by
  rintro m d m' ⟨⟩
  exact .mk line hcause

theorem bind {p : Action α} {f : α → Action β} (hp : Action.FaultsFrom T p)
    (hf : ∀ a, Action.FaultsFrom T (f a)) : Action.FaultsFrom T (p >>= f) := by
  intro m d m' h
  simp only [Bind.bind, EStateM.bind] at h
  cases hrun : p m with
  | ok a n =>
      rw [hrun] at h
      exact hf a h
  | error stop n =>
      rw [hrun] at h
      cases h
      exact hp hrun

/-- What is done to the machine at last makes no fault. -/
theorem andThen {f : Machine → Machine} {r : Upshot α} {d : Diagnostic} {m' : Machine}
    (h : Upshot.andThen f r = .error (.fault d) m') : ∃ n, r = .error (.fault d) n := by
  cases r with
  | ok a n => cases h
  | error stop n =>
      cases h
      exact ⟨n, rfl⟩

theorem nested (limit : Nat) (line : Int) {p : Action α} (hp : Action.FaultsFrom T p) :
    Action.FaultsFrom T (Action.nested limit line p) := by
  intro m d m' h
  by_cases hroom : m.depth < limit
  · rw [nested_eq line p hroom] at h
    obtain ⟨n, hrun⟩ := andThen h
    exact hp hrun
  · rw [Action.nested, if_neg hroom] at h
    exact Action.FaultsFrom.fault line .nestingTooDeep h

theorem inOwnScope {p : Action α} (hp : Action.FaultsFrom T p) :
    Action.FaultsFrom T (Action.inOwnScope p) := by
  intro m d m' h
  rw [inOwnScope_eq] at h
  obtain ⟨n, hrun⟩ := andThen h
  exact hp hrun

theorem note (e : LogEvent) : Action.FaultsFrom T (Action.note e) :=
  of_ok fun _ => ⟨(), _, rfl⟩

theorem define (name : Bytes) (v : Value) : Action.FaultsFrom T (Action.define name v) :=
  of_ok fun _ => ⟨(), _, rfl⟩

theorem assign (name : Bytes) (v : Value) : Action.FaultsFrom T (Action.assign name v) :=
  of_ok fun _ => ⟨(), _, rfl⟩

theorem get {t : Token} (ht : T t) (hkind : t.kind = .identifier) :
    Action.FaultsFrom T (Action.get t) := by
  intro m d m' h
  unfold Action.get at h
  split at h
  · cases h
  · exact Action.FaultsFrom.fault _ (.undefinedVariable ht hkind) h

theorem print (line : Int) (text : Bytes) : Action.FaultsFrom T (Action.print line text) := by
  intro m d m' h
  unfold Action.print at h
  split at h
  · cases h
  · next reason out _ => exact Action.FaultsFrom.fault line (.outputFailed reason) h

theorem ofExcept (line : Int) {x : Except RuntimeCause Value}
    (hx : ∀ cause, x = .error cause → cause.ArisesFrom T) :
    Action.FaultsFrom T (Action.ofExcept line x) := by
  cases x with
  | ok v => exact pure v
  | error cause => exact fault line (hx cause rfl)

end Action.FaultsFrom

/-! ## Operators -/

theorem unary_arises {op : Token} (hsign : op.kind = .bang ∨ op.kind = .minus) {v : Value}
    {cause : RuntimeCause} (h : Value.unary op v = .error cause) : cause.ArisesFrom T := by
  rw [unary_error hsign h]
  exact .operandNotNumber _

theorem binary_arises {op : Token} {tier : Parse.Tier} (htier : tier.operators op.kind = true)
    {a b : Value} {cause : RuntimeCause} (h : Value.binary op a b = .error cause) :
    cause.ArisesFrom T := by
  rcases binary_error htier h with rfl | rfl
  · exact .operandsNotAddable
  · exact .operandsNotNumbers _

/-! ## Trees -/

mutual

theorem evaluate_faults (o : Options) :
    (e : Expr) → e.MadeOf T → Action.FaultsFrom T (evaluate o e)
  | .absent, h => by cases h
  | .literal v line, _ => by
      rw [evaluate]
      exact .nested _ _ (.pure v)
  | .reference name, h => by
      cases h with
      | name ht hkind =>
          rw [evaluate]
          exact .nested _ _ (.get ht hkind)
  | .assign name e, h => by
      cases h with
      | assign _ _ hvalue =>
          rw [evaluate]
          refine .nested _ _ ((evaluate_faults o e hvalue).bind fun v => ?_)
          exact (Action.FaultsFrom.assign _ v).bind fun _ => .pure v
  | .unary op e, h => by
      cases h with
      | unary _ hsign hoperand =>
          rw [evaluate]
          refine .nested _ _ ((evaluate_faults o e hoperand).bind fun v => ?_)
          exact .ofExcept _ fun _ => unary_arises hsign
  | .binary left op right, h => by
      cases h with
      | binary hleft _ hop hright =>
          rw [evaluate]
          refine .nested _ _ ((evaluate_faults o left hleft).bind fun a => ?_)
          refine (evaluate_faults o right hright).bind fun b => ?_
          exact .ofExcept _ fun _ => binary_arises (Parse.operators_eq_true.mpr hop)
  | .array bracket elems, h => by
      cases h with
      | array _ _ helems =>
          rw [evaluate]
          refine .nested _ _ ?_
          split
          · exact (evaluateAll_faults o elems helems).bind fun vs => .pure _
          · exact .pure _

theorem evaluateAll_faults (o : Options) : (es : List Expr) → (∀ e ∈ es, e.MadeOf T) →
    Action.FaultsFrom T (evaluateAll o es)
  | [], _ => by
      rw [evaluateAll]
      exact .pure []
  | e :: es, h => by
      rw [evaluateAll]
      refine (evaluate_faults o e (h e List.mem_cons_self)).bind fun v => ?_
      have hes := evaluateAll_faults o es fun f hf => h f (List.mem_cons_of_mem e hf)
      exact hes.bind fun vs => .pure _

end

mutual

theorem execute_faults_live {o : Options} (hlive : o.cancelled = false) :
    (s : Stmt) → s.MadeOf T → Action.FaultsFrom T (execute o s)
  | .absent, h => by cases h
  | .print keyword e, h => by
      cases h with
      | print _ _ he =>
          rw [execute_print hlive]
          refine .nested _ _ ((Action.FaultsFrom.note _).bind fun _ => ?_)
          exact (evaluate_faults o e he).bind fun v => .print _ _
  | .expression e, h => by
      cases h with
      | expression he =>
          have hne : e ≠ .absent := by
            rintro rfl
            cases he
          rw [execute_expression hlive hne]
          refine .nested _ _ ((Action.FaultsFrom.note _).bind fun _ => ?_)
          exact (evaluate_faults o e he).bind fun _ => .pure ()
  | .declare name init, h => by
      cases h with
      | uninitialized _ _ =>
          rw [execute_declare_absent hlive]
          exact .nested _ _ ((Action.FaultsFrom.note _).bind fun _ => .define _ _)
      | initialized _ _ hinit =>
          have hne : init ≠ .absent := by
            rintro rfl
            cases hinit
          rw [execute_declare hlive _ hne]
          refine .nested _ _ ((Action.FaultsFrom.note _).bind fun _ => ?_)
          exact (evaluate_faults o init hinit).bind fun v => .define _ v
  | .block brace stmts, h => by
      cases h with
      | block _ _ hstmts =>
          have hall := executeAll_faults_live hlive stmts hstmts
          rw [execute_block hlive]
          refine .nested _ _ ((Action.FaultsFrom.note _).bind fun _ => ?_)
          split
          · exact .inOwnScope hall
          · exact hall
  | .branch keyword cond yes no, h => by
      rw [execute_branch hlive]
      cases h with
      | branch _ _ hcond hyes =>
          refine .nested _ _ ((Action.FaultsFrom.note _).bind fun _ => ?_)
          refine (evaluate_faults o cond hcond).bind fun v => ?_
          unfold chosen
          split
          · exact execute_faults_live hlive yes hyes
          · exact .pure ()
      | branchElse _ _ hcond hyes hno =>
          refine .nested _ _ ((Action.FaultsFrom.note _).bind fun _ => ?_)
          refine (evaluate_faults o cond hcond).bind fun v => ?_
          unfold chosen
          split
          · exact execute_faults_live hlive yes hyes
          · split
            · exact .pure ()
            · exact execute_faults_live hlive no hno

theorem executeAll_faults_live {o : Options} (hlive : o.cancelled = false) :
    (ss : List Stmt) → (∀ s ∈ ss, s.MadeOf T) → Action.FaultsFrom T (executeAll o ss)
  | [], _ => by
      rw [executeAll]
      exact .pure ()
  | s :: ss, h => by
      rw [executeAll]
      refine (execute_faults_live hlive s (h s List.mem_cons_self)).bind fun _ => ?_
      exact executeAll_faults_live hlive ss fun r hr => h r (List.mem_cons_of_mem s hr)

end

theorem execute_faults (o : Options) {s : Stmt} (h : s.MadeOf T) :
    Action.FaultsFrom T (execute o s) := by
  by_cases hlive : o.cancelled = true
  · intro m d m' hrun
    rw [execute_cancelled hlive] at hrun
    cases hrun
  · exact execute_faults_live (by simpa using hlive) s h

theorem executeEach_faultOf (o : Options) {ss : List Stmt} (h : ∀ s ∈ ss, s.MadeOf T)
    {p : Interpreter.Progress} (hp : ∀ d ∈ p.faults, d.FaultOf T) :
    ∀ d ∈ (Interpreter.executeEach o ss p).faults, d.FaultOf T := by
  induction ss generalizing p with
  | nil => exact hp
  | cons s ss ih =>
      have hss : ∀ r ∈ ss, r.MadeOf T := fun r hr => h r (List.mem_cons_of_mem s hr)
      rw [Interpreter.executeEach]
      cases hrun : execute o s p.machine with
      | ok _ m => exact ih hss hp
      | error stop m =>
          cases stop with
          | fault d =>
              have hd := execute_faults o (h s List.mem_cons_self) hrun
              exact ih hss (List.forall_mem_cons.mpr ⟨hd, hp⟩)
          | cancelled => exact hp
          | lineless => exact hp

end Scribe
