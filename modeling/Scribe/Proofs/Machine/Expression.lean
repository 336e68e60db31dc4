import Scribe.Proofs.Machine.Reach

/-!
# Expressions as statements

An expression that is executed as a statement is evaluated one level further in and noted for the
log. Evaluation notices neither, as long as there are levels enough: it writes nothing, it leaves
the log alone, and it counts its levels from where it begins. So the statement does what the
expression does.
-/

namespace Scribe

/-- What every evaluation is, at any limit: it gives its depth back, it writes nothing, and one
level further in, with one more level to use and another event in the log, it does the same. -/
structure Action.Inward (f : Nat → Action α) : Prop where
  depth : ∀ limit m, (Upshot.machine (f limit m)).depth = m.depth
  out : ∀ limit m, (Upshot.machine (f limit m)).out = m.out
  shifts : ∀ limit m e, f (limit + 1) (Machine.entered m e) =
    Upshot.andThen (Machine.entered · e) (f limit m)

namespace Action.Inward

variable {f : Nat → Action α}

theorem pure (a : α) : Inward fun _ => (pure a : Action α) :=
  ⟨fun _ _ => rfl, fun _ _ => rfl, fun _ _ _ => rfl⟩

theorem fault (line : Int) (cause : RuntimeCause) :
    Inward fun _ => (Action.fault line cause : Action α) :=
  ⟨fun _ _ => rfl, fun _ _ => rfl, fun _ _ _ => rfl⟩

theorem get (name : Token) : Inward fun _ => Action.get name := by
  refine ⟨fun _ m => ?_, fun _ m => ?_, fun _ m e => ?_⟩
  · unfold Action.get
    split <;> rfl
  · unfold Action.get
    split <;> rfl
  · simp only [Action.get, Machine.entered, Machine.deeper]
    split <;> rfl

theorem assign (name : Bytes) (v : Value) : Inward fun _ => Action.assign name v :=
  ⟨fun _ _ => rfl, fun _ _ => rfl, fun _ _ _ => rfl⟩

theorem bind {g : Nat → α → Action β} (hf : Inward f) (hg : ∀ a, Inward fun limit => g limit a) :
    Inward fun limit => f limit >>= g limit := by
  refine ⟨fun limit m => ?_, fun limit m => ?_, fun limit m e => ?_⟩
  · have hfirst := hf.depth limit m
    cases hrun : f limit m with
    | error stop m' =>
        rw [hrun] at hfirst
        simp only [Bind.bind, EStateM.bind, hrun]
        exact hfirst
    | ok a m' =>
        rw [hrun] at hfirst
        rw [then_of_ok hrun]
        exact ((hg a).depth limit m').trans hfirst
  · have hfirst := hf.out limit m
    cases hrun : f limit m with
    | error stop m' =>
        rw [hrun] at hfirst
        simp only [Bind.bind, EStateM.bind, hrun]
        exact hfirst
    | ok a m' =>
        rw [hrun] at hfirst
        rw [then_of_ok hrun]
        exact ((hg a).out limit m').trans hfirst
  · have hfirst := hf.shifts limit m e
    cases hrun : f limit m with
    | error stop m' =>
        rw [hrun] at hfirst
        simp only [Bind.bind, EStateM.bind, hrun, hfirst, Upshot.andThen]
    | ok a m' =>
        rw [hrun] at hfirst
        rw [then_of_ok hrun, then_of_ok hfirst]
        exact (hg a).shifts limit m' e

theorem nested (line : Int) (hf : Inward f) :
    Inward fun limit => Action.nested limit line (f limit) := by
  refine ⟨fun limit m => ?_, fun limit m => ?_, fun limit m e => ?_⟩
  all_goals by_cases hroom : m.depth < limit
  · rw [nested_eq line (f limit) hroom, machine_andThen]
    exact Nat.sub_eq_of_eq_add (hf.depth limit m.deeper)
  · simp only [Action.nested, if_neg hroom]
    rfl
  · rw [nested_eq line (f limit) hroom, machine_andThen]
    exact hf.out limit m.deeper
  · simp only [Action.nested, if_neg hroom]
    rfl
  · have hroom' : (m.entered e).depth < limit + 1 := Nat.succ_lt_succ hroom
    have hpart : f (limit + 1) (m.entered e).deeper =
        Upshot.andThen (Machine.entered · e) (f limit m.deeper) := hf.shifts limit m.deeper e
    have hdepth := hf.depth limit m.deeper
    rw [nested_eq line (f limit) hroom, nested_eq line (f (limit + 1)) hroom', hpart]
    cases hrun : f limit m.deeper with
    | ok _ m' | error _ m' =>
        -- There is a level to go back from on either side.
        have hback : (m'.entered e).shallower = m'.shallower.entered e := by
          rw [hrun] at hdepth
          simp only [Upshot.machine, Machine.deeper] at hdepth
          simp only [Machine.shallower, Machine.entered, Machine.deeper, hdepth,
            Nat.add_sub_cancel]
        simp only [Upshot.andThen, hback]
  · have hfull : ¬ (m.entered e).depth < limit + 1 := fun h => hroom (Nat.lt_of_succ_lt_succ h)
    simp only [Action.nested, if_neg hroom, if_neg hfull]
    rfl

end Action.Inward

theorem Action.Inward.compositional : Action.Compositional (fun _ => True) Action.Inward where
  pure := .pure
  fault := .fault
  get := .get
  assign v _ := .assign _ v
  bind := .bind
  nested line _ hf := .nested line hf

theorem evaluate_inward (o : Options) (e : Expr) :
    Action.Inward fun limit => evaluate { o with limit } e :=
  Action.Inward.compositional.evaluate o e fun _ _ => trivial

theorem evaluate_out (o : Options) (e : Expr) (m : Machine) :
    (Upshot.machine (evaluate o e m)).out = m.out :=
  (evaluate_inward o e).out o.limit m

/-- The ending of an evaluation without its value, and with an event in the log. -/
def Upshot.noted (e : LogEvent) : Upshot α → Upshot Unit
  | .ok _ m => .ok () { m with events := e :: m.events }
  | .error stop m => .error stop { m with events := e :: m.events }

theorem Upshot.TooDeep.noted {r : Upshot α} (h : r.TooDeep) (e : LogEvent) :
    (Upshot.noted e r).TooDeep := by
  obtain ⟨line, m, rfl⟩ := h
  exact ⟨line, _, rfl⟩

/-- An expression that is executed as a statement without running out of levels does what its
evaluation does. -/
theorem execute_expression_noted {o : Options} (hlive : o.cancelled = false) {e : Expr}
    (he : e ≠ .absent) {m : Machine} (hcalm : ¬ Upshot.TooDeep (execute o (.expression e) m)) :
    execute o (.expression e) m =
      Upshot.noted ((Stmt.expression e).event e.line) (evaluate o e m) := by
  rw [execute_expression hlive he] at hcalm ⊢
  have hroom : m.depth < o.limit := by
    by_contra hfull
    refine hcalm ⟨e.line, m, ?_⟩
    simp only [Action.nested, if_neg hfull]
    rfl
  obtain ⟨limit, hlimit⟩ : ∃ limit, o.limit = limit + 1 := ⟨o.limit - 1, by omega⟩
  have hone : ({ o with limit := limit + 1 } : Options) = o := by rw [← hlimit]
  have hinside := (evaluate_inward o e).shifts limit m ((Stmt.expression e).event e.line)
  rw [hone] at hinside
  -- The statement ends as the evaluation does that has one level less to use.
  have hless : Action.nested o.limit e.line (do
      Action.note ((Stmt.expression e).event e.line)
      let _ ← evaluate o e
      pure ()) m =
      Upshot.noted ((Stmt.expression e).event e.line) (evaluate { o with limit } e m) := by
    rw [nested_eq e.line _ hroom, then_of_ok (show Action.note _ m.deeper = .ok () (m.entered _)
      from rfl)]
    cases hrun : evaluate { o with limit } e m with
    | ok v m' | error stop m' =>
        rw [hrun] at hinside
        simp only [bind, EStateM.bind, hinside, Upshot.andThen]
        rfl
  rw [hless] at hcalm ⊢
  have huses := evaluate_uses o e m
  have henough : m.depth + e.levels o m ≤ limit := by
    by_contra hshort
    exact hcalm ((huses.short limit (by omega) (by omega)).noted _)
  rw [huses.enough limit henough, ← huses.enough o.limit (by omega)]

end Scribe
