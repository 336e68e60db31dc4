import Scribe.Proofs.Machine.Evaluation
import Scribe.Proofs.Machine.Levels

/-!
# Empty positions of a tree

Where a run gets to depends on the tree and on what its parts evaluate to on the way. A part that
stops, stops everything around it, so an empty position that a run gets to ends the run with a
fault. One statement does not get that far: it takes its line from its expression, and is asked
for the line before anything is done.
-/

namespace Scribe

inductive Node where
  | expr (e : Expr)
  | stmt (s : Stmt)

namespace Upshot

def stop? : Upshot α → Option Stop
  | .ok _ _ => none
  | .error stop _ => some stop

/-- The run succeeds, or it stops with a fault that it reports. -/
def Settled (r : Upshot α) : Prop :=
  ∀ stop, r.stop? = some stop → ∃ d : Diagnostic, d.phase = .runtime ∧ stop = .fault d

end Upshot

def Node.stop? (o : Options) : Node × Machine → Option Stop
  | (.expr e, m) => Upshot.stop? (evaluate o e m)
  | (.stmt s, m) => Upshot.stop? (execute o s m)

/-! ## Stops of sequences -/

section Stops

variable {p : Action α} {f : α → Action β} {m m' : Machine} {stop : Stop}

theorem stop?_andThen (g : Machine → Machine) (r : Upshot α) :
    Upshot.stop? (Upshot.andThen g r) = Upshot.stop? r := by
  cases r <;> rfl

theorem stop?_bind_of_ok {a : α} (h : p m = .ok a m') :
    Upshot.stop? ((p >>= f) m) = Upshot.stop? (f a m') := by
  rw [then_of_ok h]

theorem stop?_bind_of_stop (h : Upshot.stop? (p m) = some stop) :
    Upshot.stop? ((p >>= f) m) = some stop := by
  cases hp : p m with
  | ok a m' => simp [hp, Upshot.stop?] at h
  | error e m' =>
      simp only [bind, EStateM.bind, hp]
      simpa [hp, Upshot.stop?] using h

theorem stop?_bind_cases (h : Upshot.stop? ((p >>= f) m) = some stop) :
    Upshot.stop? (p m) = some stop ∨
      ∃ a m', p m = .ok a m' ∧ Upshot.stop? (f a m') = some stop := by
  cases hp : p m with
  | ok a m' =>
      rw [stop?_bind_of_ok hp] at h
      exact .inr ⟨a, m', rfl, h⟩
  | error e m' =>
      left
      simp only [bind, EStateM.bind, hp] at h
      exact h

theorem stop?_nested {limit : Nat} (line : Int) (part : Action α) (hroom : m.depth < limit) :
    Upshot.stop? (Action.nested limit line part m) = Upshot.stop? (part m.deeper) := by
  rw [nested_eq line part hroom, stop?_andThen]

theorem stop?_nested_cases {limit : Nat} {line : Int} {part : Action α}
    (h : Upshot.stop? (Action.nested limit line part m) = some stop) :
    stop = .fault (Diagnostic.runtime line .nestingTooDeep) ∨
      m.depth < limit ∧ Upshot.stop? (part m.deeper) = some stop := by
  by_cases hroom : m.depth < limit
  · rw [stop?_nested line part hroom] at h
    exact .inr ⟨hroom, h⟩
  · left
    simp only [Action.nested, if_neg hroom, Action.fault, Upshot.stop?, Option.some.injEq] at h
    exact h.symm

theorem stop?_noted {limit : Nat} (line : Int) (e : LogEvent) (part : Action α)
    (hroom : m.depth < limit) :
    Upshot.stop? (Action.nested limit line (do Action.note e; part) m) =
      Upshot.stop? (part (m.entered e)) :=
  stop?_nested line _ hroom

theorem stop?_inBlock (o : Options) (part : Action Unit) (m : Machine) :
    Upshot.stop? ((if o.blockScope then Action.inOwnScope part else part) m) =
      Upshot.stop? (part (m.inBlock o)) := by
  unfold Machine.inBlock
  by_cases hscope : o.blockScope = true
  · rw [if_pos hscope, if_pos hscope, inOwnScope_eq, stop?_andThen]
  · rw [if_neg hscope, if_neg hscope]

end Stops

theorem evaluateAll_stops {o : Options} {e : Expr} {stop : Stop} {m' : Machine}
    (after : List Expr) (hstop : Upshot.stop? (evaluate o e m') = some stop) :
    (before : List Expr) → {vs : List Value} → {m : Machine} →
    evaluateAll o before m = .ok vs m' →
    Upshot.stop? (evaluateAll o (before ++ e :: after) m) = some stop := by
  intro before
  induction before with
  | nil =>
      intro vs m h
      simp only [evaluateAll, pure, EStateM.pure, EStateM.Result.ok.injEq] at h
      obtain ⟨-, rfl⟩ := h
      exact stop?_bind_of_stop hstop
  | cons first rest ih =>
      intro vs m h
      simp only [List.cons_append, evaluateAll] at h ⊢
      cases hfirst : evaluate o first m with
      | error stop' m₁ => simp [bind, EStateM.bind, hfirst] at h
      | ok v m₁ =>
          rw [then_of_ok hfirst] at h
          rw [stop?_bind_of_ok hfirst]
          cases hrest : evaluateAll o rest m₁ with
          | error stop' m₂ => simp [bind, EStateM.bind, hrest] at h
          | ok ws m₂ =>
              simp only [bind, EStateM.bind, hrest, pure, EStateM.pure,
                EStateM.Result.ok.injEq] at h
              obtain ⟨-, rfl⟩ := h
              exact stop?_bind_of_stop (ih hrest)

theorem executeAll_stops {o : Options} {s : Stmt} {stop : Stop} {m' : Machine}
    (after : List Stmt) (hstop : Upshot.stop? (execute o s m') = some stop) :
    (before : List Stmt) → {m : Machine} → executeAll o before m = .ok () m' →
    Upshot.stop? (executeAll o (before ++ s :: after) m) = some stop := by
  intro before
  induction before with
  | nil =>
      intro m h
      simp only [executeAll, pure, EStateM.pure, EStateM.Result.ok.injEq, true_and] at h
      subst h
      exact stop?_bind_of_stop hstop
  | cons first rest ih =>
      intro m h
      simp only [List.cons_append, executeAll] at h ⊢
      cases hfirst : execute o first m with
      | error stop' m₁ => simp [bind, EStateM.bind, hfirst] at h
      | ok u m₁ =>
          rw [then_of_ok hfirst] at h
          rw [stop?_bind_of_ok hfirst]
          exact ih h

/-! ## Where a run gets to -/

/-- A run of the first node goes into the second, which is one of its parts. -/
inductive Enters (o : Options) : Node × Machine → Node × Machine → Prop
  | assigned {name : Token} {e : Expr} {m : Machine} (hroom : m.depth < o.limit) :
      Enters o (.expr (.assign name e), m) (.expr e, m.deeper)
  | operand {op : Token} {e : Expr} {m : Machine} (hroom : m.depth < o.limit) :
      Enters o (.expr (.unary op e), m) (.expr e, m.deeper)
  | left {op : Token} {left right : Expr} {m : Machine} (hroom : m.depth < o.limit) :
      Enters o (.expr (.binary left op right), m) (.expr left, m.deeper)
  | right {op : Token} {left right : Expr} {m m' : Machine} {v : Value}
      (hroom : m.depth < o.limit) (hleft : evaluate o left m.deeper = .ok v m') :
      Enters o (.expr (.binary left op right), m) (.expr right, m')
  | element {bracket : Token} {before after : List Expr} {e : Expr} {m m' : Machine}
      {vs : List Value} (hroom : m.depth < o.limit) (hon : o.arrayElements = true)
      (hbefore : evaluateAll o before m.deeper = .ok vs m') :
      Enters o (.expr (.array bracket (before ++ e :: after)), m) (.expr e, m')
  | printed {keyword : Token} {e : Expr} {m : Machine} (hroom : m.depth < o.limit) :
      Enters o (.stmt (.print keyword e), m)
        (.expr e, m.entered ((Stmt.print keyword e).event keyword.line))
  | evaluated {e : Expr} {m : Machine} (hroom : m.depth < o.limit) (he : e ≠ .absent) :
      Enters o (.stmt (.expression e), m)
        (.expr e, m.entered ((Stmt.expression e).event e.line))
  | initial {name : Token} {e : Expr} {m : Machine} (hroom : m.depth < o.limit)
      (he : e ≠ .absent) :
      Enters o (.stmt (.declare name e), m)
        (.expr e, m.entered ((Stmt.declare name e).event name.line))
  | item {brace : Token} {before after : List Stmt} {s : Stmt} {m m' : Machine}
      (hroom : m.depth < o.limit)
      (hbefore : executeAll o before ((m.entered
        ((Stmt.block brace (before ++ s :: after)).event brace.line)).inBlock o) = .ok () m') :
      Enters o (.stmt (.block brace (before ++ s :: after)), m) (.stmt s, m')
  | condition {keyword : Token} {cond : Expr} {yes no : Stmt} {m : Machine}
      (hroom : m.depth < o.limit) :
      Enters o (.stmt (.branch keyword cond yes no), m)
        (.expr cond, m.entered ((Stmt.branch keyword cond yes no).event keyword.line))
  | yes {keyword : Token} {cond : Expr} {yes no : Stmt} {m m' : Machine} {v : Value}
      (hroom : m.depth < o.limit)
      (hcond : evaluate o cond
        (m.entered ((Stmt.branch keyword cond yes no).event keyword.line)) = .ok v m')
      (hv : v.truthy = true) :
      Enters o (.stmt (.branch keyword cond yes no), m) (.stmt yes, m')
  | no {keyword : Token} {cond : Expr} {yes no : Stmt} {m m' : Machine} {v : Value}
      (hroom : m.depth < o.limit)
      (hcond : evaluate o cond
        (m.entered ((Stmt.branch keyword cond yes no).event keyword.line)) = .ok v m')
      (hv : v.truthy = false) (hno : no ≠ .absent) :
      Enters o (.stmt (.branch keyword cond yes no), m) (.stmt no, m')

/-- A run of the first node comes to the second. -/
def Reaches (o : Options) : Node × Machine → Node × Machine → Prop :=
  Relation.ReflTransGen (Enters o)

theorem Stmt.isAbsent_eq_false {s : Stmt} (h : s ≠ .absent) : s.isAbsent = false := by
  cases s with
  | absent => exact absurd rfl h
  | _ => rfl

section Reaches

variable {o : Options} (hlive : o.cancelled = false) {a b : Node × Machine} {stop : Stop}
include hlive

/-- What stops a part stops the whole. -/
theorem Enters.stops (h : Enters o a b) (hb : Node.stop? o b = some stop) :
    Node.stop? o a = some stop := by
  cases h with
  | assigned hroom | operand hroom | left hroom =>
      simp only [Node.stop?, evaluate, stop?_nested _ _ hroom]
      exact stop?_bind_of_stop hb
  | right hroom hleft =>
      simp only [Node.stop?, evaluate, stop?_nested _ _ hroom, stop?_bind_of_ok hleft]
      exact stop?_bind_of_stop hb
  | element hroom hon hbefore =>
      simp only [Node.stop?, evaluate, stop?_nested _ _ hroom, if_pos hon]
      exact stop?_bind_of_stop (evaluateAll_stops _ hb _ hbefore)
  | printed hroom =>
      rw [Node.stop?, execute_print hlive, stop?_noted _ _ _ hroom]
      exact stop?_bind_of_stop hb
  | evaluated hroom he =>
      rw [Node.stop?, execute_expression hlive he, stop?_noted _ _ _ hroom]
      exact stop?_bind_of_stop hb
  | initial hroom he =>
      rw [Node.stop?, execute_declare hlive _ he, stop?_noted _ _ _ hroom]
      exact stop?_bind_of_stop hb
  | item hroom hbefore =>
      rw [Node.stop?, execute_block hlive, stop?_noted _ _ _ hroom, stop?_inBlock]
      exact executeAll_stops _ hb _ hbefore
  | condition hroom =>
      rw [Node.stop?, execute_branch hlive, stop?_noted _ _ _ hroom]
      exact stop?_bind_of_stop hb
  | yes hroom hcond hv =>
      rw [Node.stop?, execute_branch hlive, stop?_noted _ _ _ hroom, stop?_bind_of_ok hcond,
        chosen, if_pos hv]
      exact hb
  | no hroom hcond hv hno =>
      rw [Node.stop?, execute_branch hlive, stop?_noted _ _ _ hroom, stop?_bind_of_ok hcond,
        chosen, hv, Stmt.isAbsent_eq_false hno]
      exact hb

theorem Reaches.stops (h : Reaches o a b) (hb : Node.stop? o b = some stop) :
    Node.stop? o a = some stop := by
  induction h using Relation.ReflTransGen.head_induction_on with
  | refl => exact hb
  | head hstep _ ih => exact hstep.stops hlive ih

end Reaches

/-! ## Expressions settle -/

namespace Upshot.Settled

variable {p : Action α} {m : Machine}

theorem of_ok {a : α} {m' : Machine} (h : p m = .ok a m') : Settled (p m) := by
  intro stop hstop
  simp [h, stop?] at hstop

theorem fault (line : Int) (cause : RuntimeCause) (m : Machine) :
    Settled (Action.fault line cause m : Upshot α) := by
  intro stop hstop
  simp only [Action.fault, stop?, Option.some.injEq] at hstop
  exact ⟨_, rfl, hstop.symm⟩

theorem bind {f : α → Action β} (hp : Settled (p m))
    (hf : ∀ a m', p m = .ok a m' → Settled (f a m')) : Settled ((p >>= f) m) := by
  intro stop hstop
  rcases stop?_bind_cases hstop with h | ⟨a, m', hok, h⟩
  · exact hp stop h
  · exact hf a m' hok stop h

theorem nested {limit : Nat} (line : Int) (h : Settled (p m.deeper)) :
    Settled (Action.nested limit line p m) := by
  intro stop hstop
  rcases stop?_nested_cases hstop with rfl | ⟨-, hpart⟩
  · exact ⟨_, rfl, rfl⟩
  · exact h stop hpart

theorem get (name : Token) (m : Machine) : Settled (Action.get name m) := by
  unfold Action.get
  split
  · exact of_ok (p := fun m => .ok _ m) rfl
  · exact fault _ _ m

theorem print (line : Int) (text : Bytes) (m : Machine) : Settled (Action.print line text m) := by
  unfold Action.print
  split
  · exact of_ok (p := fun _ => .ok () _) (m := m) rfl
  · exact fault _ _ _

end Upshot.Settled

open Upshot (Settled)

theorem Upshot.Settled.compositional :
    Action.Compositional (fun _ => True) fun f => ∀ limit m, Settled (f limit m) where
  pure _ _ _ := .of_ok rfl
  fault line cause _ := .fault line cause
  get name _ := .get name
  assign _ _ _ _ := .of_ok rfl
  bind hf hg limit m := (hf limit m).bind fun a m' _ => hg a limit m'
  nested line _ hf limit m := .nested line (hf limit m.deeper)

theorem evaluate_settles (o : Options) (e : Expr) (m : Machine) : Settled (evaluate o e m) :=
  Settled.compositional.evaluate o e (fun _ _ => trivial) o.limit m

/-! ## Statements settle unless one without a line is reached -/

/-- The statement that has no line of its own and no expression to take one from. -/
def hollow : Stmt := .expression .absent

/-- The run settles, or else it has come to a statement without a line. -/
def SettlesOr (o : Options) (a : Node × Machine) (r : Upshot Unit) : Prop :=
  Settled r ∨ ∃ m', Reaches o a (.stmt hollow, m')

theorem SettlesOr.inside {o : Options} {a b : Node × Machine} {r r' : Upshot Unit}
    (h : Enters o a b) (hstop : Upshot.stop? r = Upshot.stop? r') (hb : SettlesOr o b r') :
    SettlesOr o a r := by
  rcases hb with hb | ⟨m', hb⟩
  · left
    intro stop hr
    exact hb stop (hstop ▸ hr)
  · exact .inr ⟨m', hb.head h⟩

theorem nested_settlesOr {o : Options} {a : Node × Machine} {m : Machine} {line : Int}
    {e : LogEvent} {part : Action Unit}
    (h : m.depth < o.limit → SettlesOr o a (part (m.entered e))) :
    SettlesOr o a (Action.nested o.limit line (do Action.note e; part) m) := by
  by_cases hroom : m.depth < o.limit
  · rcases h hroom with hsettled | hreached
    · left
      intro stop hstop
      rw [stop?_noted line e part hroom] at hstop
      exact hsettled stop hstop
    · exact .inr hreached
  · left
    intro stop hstop
    rcases stop?_nested_cases hstop with rfl | ⟨hroom', -⟩
    · exact ⟨_, rfl, rfl⟩
    · exact absurd hroom' hroom

mutual

theorem execute_settlesOr {o : Options} (hlive : o.cancelled = false) :
    (s : Stmt) → (m : Machine) → SettlesOr o (.stmt s, m) (execute o s m)
  | .absent, m => by
      rw [execute_absent hlive]
      exact .inl (.fault 0 _ m)
  | .print keyword e, m => by
      rw [execute_print hlive]
      refine nested_settlesOr fun _ => .inl ?_
      exact (evaluate_settles o e _).bind fun v m' _ => .print _ _ m'
  | .expression e, m => by
      by_cases he : e = .absent
      · subst he
        exact .inr ⟨m, .refl⟩
      · rw [execute_expression hlive he]
        refine nested_settlesOr fun _ => .inl ?_
        exact (evaluate_settles o e _).bind fun v m' _ => .of_ok rfl
  | .declare name init, m => by
      by_cases hinit : init = .absent
      · subst hinit
        rw [execute_declare_absent hlive]
        exact nested_settlesOr fun _ => .inl (.of_ok rfl)
      · rw [execute_declare hlive name hinit]
        refine nested_settlesOr fun _ => .inl ?_
        exact (evaluate_settles o init _).bind fun v m' _ => .of_ok rfl
  | .block brace stmts, m => by
      rw [execute_block hlive]
      refine nested_settlesOr fun hroom => ?_
      rcases executeAll_settlesOr hlive stmts
        ((m.entered ((Stmt.block brace stmts).event brace.line)).inBlock o) with
        hsettled | ⟨before, s, after, m₁, m', rfl, hbefore, hreached⟩
      · left
        intro stop hstop
        rw [stop?_inBlock] at hstop
        exact hsettled stop hstop
      · exact .inr ⟨m', hreached.head (.item hroom hbefore)⟩
  | .branch keyword cond yes no, m => by
      rw [execute_branch hlive]
      refine nested_settlesOr fun hroom => ?_
      cases hcond : evaluate o cond
          (m.entered ((Stmt.branch keyword cond yes no).event keyword.line)) with
      | error stop m₁ =>
          left
          refine (evaluate_settles o cond _).bind fun v m' hok => ?_
          rw [hcond] at hok
          cases hok
      | ok v m₁ =>
          have hstop := stop?_bind_of_ok (f := chosen o yes no) hcond
          cases hv : v.truthy with
          | true =>
              refine .inside (.yes hroom hcond hv) ?_ (execute_settlesOr hlive yes m₁)
              rw [hstop, chosen, if_pos hv]
          | false =>
              by_cases hno : no = .absent
              · left
                have hchosen : chosen o yes no v m₁ = .ok () m₁ := by
                  rw [chosen, hv, hno]
                  rfl
                intro stop h
                rw [hstop, hchosen] at h
                cases h
              · refine .inside (.no hroom hcond hv hno) ?_ (execute_settlesOr hlive no m₁)
                rw [hstop, chosen, hv, Stmt.isAbsent_eq_false hno]
                rfl

theorem executeAll_settlesOr {o : Options} (hlive : o.cancelled = false) :
    (ss : List Stmt) → (m : Machine) →
    Settled (executeAll o ss m) ∨ ∃ before s after m₁ m', ss = before ++ s :: after ∧
      executeAll o before m = .ok () m₁ ∧ Reaches o (.stmt s, m₁) (.stmt hollow, m')
  | [], m => by
      left
      rw [executeAll]
      exact .of_ok rfl
  | s :: ss, m => by
      rcases execute_settlesOr hlive s m with hfirst | ⟨m', hfirst⟩
      · cases hrun : execute o s m with
        | error stop m₁ =>
            left
            rw [executeAll]
            refine hfirst.bind fun _ m' hok => ?_
            rw [hrun] at hok
            cases hok
        | ok u m₁ =>
            rcases executeAll_settlesOr hlive ss m₁ with
              hrest | ⟨before, t, after, m₂, m', rfl, hbefore, hreached⟩
            · left
              rw [executeAll]
              refine hfirst.bind fun _ m' hok => ?_
              rw [hrun] at hok
              cases hok
              exact hrest
            · refine .inr ⟨s :: before, t, after, m₂, m', rfl, ?_, hreached⟩
              rw [executeAll, then_of_ok hrun, hbefore]
      · exact .inr ⟨[], s, ss, m, m', rfl, rfl, hfirst⟩

end

theorem hollow_stops {o : Options} (hlive : o.cancelled = false) (m : Machine) :
    Node.stop? o (.stmt hollow, m) = some .lineless := by
  rw [Node.stop?, hollow, execute_expression_absent hlive]
  rfl

/-- Expressions succeed or report a fault, and so do statements, unless they come to an expression
statement without an expression. Anything else that is missing is a fault where a run comes to
it. -/
theorem execute_settled_iff {o : Options} (hlive : o.cancelled = false) (m : Machine) :
    (∀ e, Settled (evaluate o e m)) ∧
    (∀ s, Settled (execute o s m) ↔
      ¬ ∃ m', Reaches o (.stmt s, m) (.stmt (.expression .absent), m')) ∧
    (∀ n m', Reaches o (n, m) (.expr .absent, m') →
      Node.stop? o (n, m) = some (.fault (Diagnostic.runtime 0 .missingExpression))) ∧
    (∀ n m', Reaches o (n, m) (.stmt .absent, m') →
      Node.stop? o (n, m) = some (.fault (Diagnostic.runtime 0 .missingStatement))) := by
  refine ⟨fun e => evaluate_settles o e m, fun s => ?_, fun n m' h => ?_, fun n m' h => ?_⟩
  · constructor
    · rintro hsettled ⟨m', hreached⟩
      obtain ⟨d, -, hd⟩ := hsettled _ (hreached.stops hlive (hollow_stops hlive m'))
      cases hd
    · exact fun hnot => (execute_settlesOr hlive s m).resolve_right hnot
  · refine h.stops hlive ?_
    rw [Node.stop?, evaluate]
    rfl
  · refine h.stops hlive ?_
    rw [Node.stop?, execute_absent hlive]
    rfl

/-- A block that prints nothing at all: the fault is reported where the value is missing. -/
theorem empty_print_settled :
    let s : Stmt := .block (.endOfText 1) [.print (.endOfText 2) .absent]
    let m : Machine := ⟨.ofTop .empty, .unlimited, 0, []⟩
    Settled (execute {} s m) ∧ Node.stop? {} (.stmt s, m) =
      some (.fault (Diagnostic.runtime 0 .missingExpression)) := by
  intro s m
  have hitem : Enters {} (.stmt (.block (.endOfText 1) ([] ++ [.print (.endOfText 2) .absent])), m)
      (.stmt (.print (.endOfText 2) .absent), m.entered (s.event 1)) := .item (by decide) rfl
  have hprinted : Enters {} (.stmt (.print (.endOfText 2) .absent), m.entered (s.event 1))
      (.expr .absent, _) := .printed (by decide)
  have hreached : Reaches {} (.stmt s, m) (.expr .absent, _) :=
    (Relation.ReflTransGen.single hitem).tail hprinted
  have hstop := (execute_settled_iff (o := {}) rfl m).2.2.1 _ _ hreached
  refine ⟨?_, hstop⟩
  intro stop h
  rw [Node.stop?] at hstop
  rw [hstop, Option.some.injEq] at h
  exact ⟨_, rfl, h.symm⟩

/-- An expression statement without an expression does not settle. -/
theorem hollow_unsettled : ¬ ∀ (o : Options) (s : Stmt) (m : Machine), o.cancelled = false →
    Settled (execute o s m) := by
  intro h
  have hsettled := h {} (.block (.endOfText 1) [hollow]) ⟨.ofTop .empty, .unlimited, 0, []⟩ rfl
  obtain ⟨d, -, hd⟩ := hsettled .lineless rfl
  cases hd

end Scribe
