import Mathlib
import Scribe.Machine.Execute

/-!
# Steps of a run

How an action ends, and the equations by which a run goes into the parts of a statement.
-/

namespace Scribe

abbrev Upshot (α : Type) := EStateM.Result Stop Machine α

namespace Upshot

def machine : Upshot α → Machine
  | .ok _ m => m
  | .error _ m => m

def andThen (f : Machine → Machine) : Upshot α → Upshot α
  | .ok a m => .ok a (f m)
  | .error stop m => .error stop (f m)

end Upshot

def Machine.deeper (m : Machine) : Machine := { m with depth := m.depth + 1 }

def Machine.shallower (m : Machine) : Machine := { m with depth := m.depth - 1 }

def Machine.leave (m : Machine) : Machine := { m with scopes := m.scopes.leave }

/-- The machine inside a statement that has been noted for the log. -/
def Machine.entered (m : Machine) (e : LogEvent) : Machine :=
  { m.deeper with events := e :: m.events }

theorem machine_andThen (f : Machine → Machine) (r : Upshot α) :
    Upshot.machine (Upshot.andThen f r) = f (Upshot.machine r) := by
  cases r <;> rfl

theorem then_of_ok {p : Action α} {f : α → Action β} {m m' : Machine} {a : α}
    (h : p m = .ok a m') : (p >>= f) m = f a m' := by
  simp only [bind, EStateM.bind, h]

/-- A part that there is room for runs one level deeper. -/
theorem nested_eq {limit : Nat} {m : Machine} (line : Int) (part : Action α)
    (hroom : m.depth < limit) :
    Action.nested limit line part m = Upshot.andThen Machine.shallower (part m.deeper) := by
  simp only [Action.nested, if_pos hroom]
  rfl

theorem nested_of_ok {limit : Nat} {line : Int} {part : Action α} {m : Machine} {a : α}
    (hroom : m.depth < limit) (h : part m.deeper = .ok a m.deeper) :
    Action.nested limit line part m = .ok a m := by
  rw [nested_eq line part hroom, h]
  rfl

theorem inOwnScope_eq (part : Action α) (m : Machine) :
    Action.inOwnScope part m =
      Upshot.andThen Machine.leave (part { m with scopes := m.scopes.enclose }) := by
  simp only [Action.inOwnScope]
  rfl

def chosen (o : Options) (yes no : Stmt) (v : Value) : Action Unit :=
  if v.truthy then execute o yes else if no.isAbsent then pure () else execute o no

theorem execute_cancelled {o : Options} (h : o.cancelled = true) (s : Stmt) (m : Machine) :
    execute o s m = .error .cancelled m := by
  unfold execute
  rw [if_pos h]
  rfl

/-! An execution that has not been called off, one form of statement at a time. -/

section Execute

variable {o : Options} (hlive : o.cancelled = false)
include hlive

theorem running : ¬ o.cancelled = true := by
  rw [hlive]
  decide

theorem execute_absent : execute o .absent = Action.fault 0 .missingStatement :=
  if_neg (running hlive)

theorem execute_print (keyword : Token) (e : Expr) :
    execute o (.print keyword e) = Action.nested o.limit keyword.line (do
      Action.note ((Stmt.print keyword e).event keyword.line)
      let v ← evaluate o e
      Action.print keyword.line v.display) :=
  if_neg (running hlive)

theorem execute_expression_absent : execute o (.expression .absent) = throw .lineless :=
  if_neg (running hlive)

theorem execute_expression {e : Expr} (he : e ≠ .absent) :
    execute o (.expression e) = Action.nested o.limit e.line (do
      Action.note ((Stmt.expression e).event e.line)
      let _ ← evaluate o e
      pure ()) := by
  cases e with
  | absent => exact absurd rfl he
  | _ => exact if_neg (running hlive)

theorem execute_declare_absent (name : Token) :
    execute o (.declare name .absent) = Action.nested o.limit name.line (do
      Action.note ((Stmt.declare name .absent).event name.line)
      Action.define name.lexeme .null) :=
  if_neg (running hlive)

theorem execute_declare (name : Token) {init : Expr} (hinit : init ≠ .absent) :
    execute o (.declare name init) = Action.nested o.limit name.line (do
      Action.note ((Stmt.declare name init).event name.line)
      let v ← evaluate o init
      Action.define name.lexeme v) := by
  cases init with
  | absent => exact absurd rfl hinit
  | _ => exact if_neg (running hlive)

theorem execute_block (brace : Token) (stmts : List Stmt) :
    execute o (.block brace stmts) = Action.nested o.limit brace.line (do
      Action.note ((Stmt.block brace stmts).event brace.line)
      if o.blockScope then Action.inOwnScope (executeAll o stmts) else executeAll o stmts) :=
  if_neg (running hlive)

theorem execute_branch (keyword : Token) (cond : Expr) (yes no : Stmt) :
    execute o (.branch keyword cond yes no) = Action.nested o.limit keyword.line (do
      Action.note ((Stmt.branch keyword cond yes no).event keyword.line)
      let v ← evaluate o cond
      chosen o yes no v) :=
  if_neg (running hlive)

end Execute

end Scribe
