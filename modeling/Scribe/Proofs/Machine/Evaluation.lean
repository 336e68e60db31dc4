import Mathlib
import Scribe.Machine.Evaluate

/-!
# Properties of evaluations

An induction over expressions, carried out once. A property that the steps of an evaluation have,
that sequences of them keep and that going one level deeper keeps, is a property of the evaluation
of every expression. Properties are asked of actions at every limit, so that they may compare the
endings at two limits.
-/

namespace Scribe

mutual

def Expr.assigned : Expr → List Bytes
  | .absent | .literal _ _ | .reference _ => []
  | .assign name e => name.lexeme :: e.assigned
  | .unary _ e => e.assigned
  | .binary left _ right => left.assigned ++ right.assigned
  | .array _ elems => Expr.assignedAll elems

def Expr.assignedAll : List Expr → List Bytes
  | [] => []
  | e :: es => e.assigned ++ Expr.assignedAll es

end

/-- A property of actions with a limit that an evaluation has if its steps have it. Only names with
the property `N` are assigned to. -/
structure Action.Compositional (N : Bytes → Prop)
    (P : ∀ {α : Type}, (Nat → Action α) → Prop) : Prop where
  pure : ∀ {α : Type} (a : α), P fun _ => (pure a : Action α)
  fault : ∀ (line : Int) (cause : RuntimeCause), P fun _ => (fault line cause : Action Value)
  get : ∀ name : Token, P fun _ => get name
  assign : ∀ {name : Bytes} (v : Value), N name → P fun _ => assign name v
  bind : ∀ {α β : Type} {f : Nat → Action α} {g : Nat → α → Action β}, P f →
    (∀ a, P fun limit => g limit a) → P fun limit => f limit >>= g limit
  nested : ∀ (line : Int) {f : Nat → Action Value}, P f →
    P fun limit => nested limit line (f limit)

namespace Action.Compositional

variable {N : Bytes → Prop} {P : ∀ {α : Type}, (Nat → Action α) → Prop}

theorem ofExcept (hP : Compositional N P) (line : Int) (x : Except RuntimeCause Value) :
    P fun _ => Action.ofExcept line x := by
  cases x with
  | ok v => exact hP.pure v
  | error cause => exact hP.fault line cause

mutual

theorem evaluate (hP : Compositional N P) (o : Options) : (e : Expr) →
    (∀ name ∈ e.assigned, N name) → P fun limit => Scribe.evaluate { o with limit } e
  | .absent, _ => by
      simp only [Scribe.evaluate]
      exact hP.fault 0 _
  | .literal v line, _ => by
      simp only [Scribe.evaluate]
      exact hP.nested line (hP.pure v)
  | .reference name, _ => by
      simp only [Scribe.evaluate]
      exact hP.nested name.line (hP.get name)
  | .assign name e, hnames => by
      rw [Expr.assigned, List.forall_mem_cons] at hnames
      simp only [Scribe.evaluate]
      refine hP.nested name.line (hP.bind (hP.evaluate o e hnames.2) fun v => ?_)
      exact hP.bind (hP.assign v hnames.1) fun _ => hP.pure v
  | .unary op e, hnames => by
      simp only [Scribe.evaluate]
      exact hP.nested op.line (hP.bind (hP.evaluate o e hnames) fun v => hP.ofExcept _ _)
  | .binary left op right, hnames => by
      rw [Expr.assigned, List.forall_mem_append] at hnames
      simp only [Scribe.evaluate]
      refine hP.nested op.line (hP.bind (hP.evaluate o left hnames.1) fun a => ?_)
      exact hP.bind (hP.evaluate o right hnames.2) fun b => hP.ofExcept _ _
  | .array bracket elems, hnames => by
      simp only [Scribe.evaluate]
      refine hP.nested bracket.line ?_
      by_cases hon : o.arrayElements = true
      · simp only [if_pos hon]
        exact hP.bind (hP.evaluateAll o elems hnames) fun vs => hP.pure _
      · simp only [if_neg hon]
        exact hP.pure _

theorem evaluateAll (hP : Compositional N P) (o : Options) : (es : List Expr) →
    (∀ name ∈ Expr.assignedAll es, N name) → P fun limit => Scribe.evaluateAll { o with limit } es
  | [], _ => by
      simp only [Scribe.evaluateAll]
      exact hP.pure []
  | e :: es, hnames => by
      rw [Expr.assignedAll, List.forall_mem_append] at hnames
      simp only [Scribe.evaluateAll]
      refine hP.bind (hP.evaluate o e hnames.1) fun v => ?_
      exact hP.bind (hP.evaluateAll o es hnames.2) fun vs => hP.pure _

end

end Action.Compositional

end Scribe
