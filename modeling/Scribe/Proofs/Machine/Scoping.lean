import Scribe.Interpreter
import Scribe.Proofs.Machine.Frame

/-!
# Scopes without declarations

An empty scope in front of the others is not noticed: look-ups and assignments go through it. A
part that declares nothing leaves such a scope empty, so it does the same in a scope of its own and
without one. Where no block holds a declaration, scopes of blocks therefore make no difference.
-/

namespace Scribe

def Machine.fenced (m : Machine) : Machine := { m with scopes := m.scopes.enclose }

theorem Upshot.andThen_andThen (f g : Machine → Machine) (r : Upshot α) :
    Upshot.andThen f (Upshot.andThen g r) = Upshot.andThen (f ∘ g) r := by
  cases r <;> rfl

theorem Upshot.leave_fenced (r : Upshot α) :
    Upshot.andThen Machine.leave (Upshot.andThen Machine.fenced r) = r := by
  cases r <;> rfl

/-! ## What does not notice a scope -/

namespace Scopes

variable (s : Scopes) (name : Bytes) (v : Value)

theorem get?_enclose : s.enclose.get? name = s.get? name := rfl

theorem assign_enclose : s.enclose.assign name v = (s.assign name v).enclose := by
  have hempty : Bindings.empty.binds name = false := rfl
  simp only [assign, enclose, assignIn, hempty, Bool.false_eq_true, if_false]
  cases assignIn name v s.inner <;> rfl

end Scopes

/-- A new scope makes no difference to the run, and the run leaves the scope as it was. -/
def Action.Blind (p : Action α) : Prop :=
  ∀ m : Machine, p m.fenced = Upshot.andThen Machine.fenced (p m)

namespace Action.Blind

variable {p : Action α}

theorem pure (a : α) : Blind (pure a : Action α) := fun _ => rfl

theorem stop (e : Stop) : Blind (throw e : Action α) := fun _ => rfl

theorem fault (line : Int) (cause : RuntimeCause) : Blind (Action.fault line cause : Action α) :=
  fun _ => rfl

theorem note (e : LogEvent) : Blind (Action.note e) := fun _ => rfl

theorem assign (name : Bytes) (v : Value) : Blind (Action.assign name v) := by
  intro m
  simp only [Action.assign, Machine.fenced, Scopes.assign_enclose, Upshot.andThen]

theorem get (name : Token) : Blind (Action.get name) := by
  intro m
  simp only [Action.get, Machine.fenced, Scopes.get?_enclose]
  cases m.scopes.get? name.lexeme <;> rfl

theorem print (line : Int) (text : Bytes) : Blind (Action.print line text) := by
  intro m
  simp only [Action.print, Machine.fenced]
  split <;> rfl

theorem bind {f : α → Action β} (hp : Blind p) (hf : ∀ a, Blind (f a)) : Blind (p >>= f) := by
  intro m
  have hfirst := hp m
  cases hrun : p m with
  | error e m' =>
      rw [hrun] at hfirst
      simp only [Bind.bind, EStateM.bind, hrun, hfirst, Upshot.andThen]
  | ok a m' =>
      rw [hrun] at hfirst
      rw [then_of_ok hrun, then_of_ok hfirst, hf a m']

theorem nested (limit : Nat) (line : Int) (h : Blind p) : Blind (Action.nested limit line p) := by
  intro m
  by_cases hroom : m.depth < limit
  · have hpart : p m.fenced.deeper = Upshot.andThen Machine.fenced (p m.deeper) := h m.deeper
    rw [nested_eq line p hroom, nested_eq line p (m := m.fenced) hroom, hpart,
      Upshot.andThen_andThen, Upshot.andThen_andThen]
    rfl
  · have hfull : ¬ m.fenced.depth < limit := hroom
    simp only [Action.nested, if_neg hroom, if_neg hfull]
    rfl

theorem inOwnScope_eq (h : Blind p) : Action.inOwnScope p = p := by
  funext m
  have hpart : p { m with scopes := m.scopes.enclose } = _ := h m
  rw [Scribe.inOwnScope_eq, hpart, Upshot.leave_fenced]

end Action.Blind

open Scribe.Action (Blind)

/-! ## Expressions -/

theorem Action.Blind.compositional :
    Action.Compositional (fun _ => True) fun f => ∀ limit, Blind (f limit) where
  pure a _ := .pure a
  fault line cause _ := .fault line cause
  get name _ := .get name
  assign v _ _ := .assign _ v
  bind hf hg limit := (hf limit).bind fun a => hg a limit
  nested line _ hf limit := (hf limit).nested limit line

theorem evaluate_blind (o : Options) (e : Expr) : Blind (evaluate o e) :=
  Blind.compositional.evaluate o e (fun _ _ => trivial) o.limit

structure Options.Agree (o o' : Options) : Prop where
  arrayElements : o.arrayElements = o'.arrayElements
  limit : o.limit = o'.limit
  cancelled : o.cancelled = o'.cancelled

mutual

theorem evaluate_agree {o o' : Options} (h : o.Agree o') :
    (e : Expr) → evaluate o e = evaluate o' e
  | .absent => by rw [evaluate, evaluate]
  | .literal _ _ | .reference _ => by rw [evaluate, evaluate, h.limit]
  | .assign _ e | .unary _ e => by rw [evaluate, evaluate, h.limit, evaluate_agree h e]
  | .binary left _ right => by
      rw [evaluate, evaluate, h.limit, evaluate_agree h left, evaluate_agree h right]
  | .array _ elems => by
      rw [evaluate, evaluate, h.limit, h.arrayElements, evaluateAll_agree h elems]

theorem evaluateAll_agree {o o' : Options} (h : o.Agree o') :
    (es : List Expr) → evaluateAll o es = evaluateAll o' es
  | [] => by rw [evaluateAll, evaluateAll]
  | e :: es => by rw [evaluateAll, evaluateAll, evaluate_agree h e, evaluateAll_agree h es]

end

/-! ## Statements -/

/-- No declaration stands inside a block, at any depth. -/
def Stmt.Unfenced : Stmt → Prop
  | .block _ stmts => Stmt.declaredAll {} stmts = []
  | .branch _ _ yes no => yes.Unfenced ∧ no.Unfenced
  | _ => True

theorem Stmt.unfenced_of_declared {s : Stmt} (h : s.declared {} = []) : s.Unfenced := by
  induction s using Stmt.Unfenced.induct with
  | case1 brace stmts => exact h
  | case2 keyword cond yes no ihyes ihno =>
      rw [declared, List.append_eq_nil_iff] at h
      exact ⟨ihyes h.1, ihno h.2⟩
  | case3 s hblock hbranch =>
      unfold Unfenced
      split
      · exact absurd rfl (hblock _ _)
      · exact absurd rfl (hbranch _ _ _ _)
      · trivial

theorem Stmt.unfenced_of_declaredAll {ss : List Stmt} (h : Stmt.declaredAll {} ss = []) :
    ∀ s ∈ ss, s.Unfenced := by
  induction ss with
  | nil => simp
  | cons s ss ih =>
      rw [declaredAll, List.append_eq_nil_iff] at h
      simpa using ⟨unfenced_of_declared h.1, ih h.2⟩

mutual

/-- A statement without declarations does not notice a scope. -/
theorem execute_blind {o : Options} (hlive : o.cancelled = false) :
    (s : Stmt) → s.declared {} = [] → Blind (execute o s)
  | .absent, _ => by
      rw [execute_absent hlive]
      exact .fault 0 _
  | .print keyword e, _ => by
      rw [execute_print hlive]
      refine .nested _ _ ((Blind.note _).bind fun _ => ?_)
      exact (evaluate_blind o e).bind fun v => .print _ _
  | .expression e, _ => by
      by_cases he : e = .absent
      · rw [he, execute_expression_absent hlive]
        exact .stop _
      · rw [execute_expression hlive he]
        refine .nested _ _ ((Blind.note _).bind fun _ => ?_)
        exact (evaluate_blind o e).bind fun v => .pure ()
  | .declare name init, h => by
      rw [Stmt.declared] at h
      cases h
  | .block brace stmts, h => by
      have hall := executeAll_blind hlive stmts h
      rw [execute_block hlive]
      refine .nested _ _ ((Blind.note _).bind fun _ => ?_)
      split
      · rwa [hall.inOwnScope_eq]
      · exact hall
  | .branch keyword cond yes no, h => by
      rw [Stmt.declared, List.append_eq_nil_iff] at h
      rw [execute_branch hlive]
      refine .nested _ _ ((Blind.note _).bind fun _ => ?_)
      refine (evaluate_blind o cond).bind fun v => ?_
      unfold chosen
      split
      · exact execute_blind hlive yes h.1
      · split
        · exact .pure ()
        · exact execute_blind hlive no h.2

theorem executeAll_blind {o : Options} (hlive : o.cancelled = false) :
    (ss : List Stmt) → Stmt.declaredAll {} ss = [] → Blind (executeAll o ss)
  | [], _ => by
      rw [executeAll]
      exact .pure ()
  | s :: ss, h => by
      rw [Stmt.declaredAll, List.append_eq_nil_iff] at h
      rw [executeAll]
      exact (execute_blind hlive s h.1).bind fun _ => executeAll_blind hlive ss h.2

end

theorem executeAll_inBlock {o : Options} (hlive : o.cancelled = false) {ss : List Stmt}
    (h : Stmt.declaredAll {} ss = []) :
    (if o.blockScope then Action.inOwnScope (executeAll o ss) else executeAll o ss) =
      executeAll o ss := by
  rw [(executeAll_blind hlive ss h).inOwnScope_eq, ite_self]

mutual

/-- A statement without declarations in its blocks does the same with scopes of blocks and without
them. -/
theorem execute_agree {o o' : Options} (h : o.Agree o') (hlive : o.cancelled = false)
    (hlive' : o'.cancelled = false) : (s : Stmt) → s.Unfenced → execute o s = execute o' s
  | .absent, _ => by rw [execute_absent hlive, execute_absent hlive']
  | .print keyword e, _ => by
      rw [execute_print hlive, execute_print hlive', h.limit, evaluate_agree h e]
  | .expression e, _ => by
      by_cases he : e = .absent
      · rw [he, execute_expression_absent hlive, execute_expression_absent hlive']
      · rw [execute_expression hlive he, execute_expression hlive' he, h.limit, evaluate_agree h e]
  | .declare name init, _ => by
      by_cases hinit : init = .absent
      · rw [hinit, execute_declare_absent hlive, execute_declare_absent hlive', h.limit]
      · rw [execute_declare hlive name hinit, execute_declare hlive' name hinit, h.limit,
          evaluate_agree h init]
  | .block brace stmts, hs => by
      have hsame := executeAll_agree h hlive hlive' stmts (Stmt.unfenced_of_declaredAll hs)
      rw [execute_block hlive, execute_block hlive', h.limit, executeAll_inBlock hlive hs,
        executeAll_inBlock hlive' hs, hsame]
  | .branch keyword cond yes no, hs => by
      have hchosen : chosen o yes no = chosen o' yes no := by
        funext v
        rw [chosen, chosen, execute_agree h hlive hlive' yes hs.1,
          execute_agree h hlive hlive' no hs.2]
      rw [execute_branch hlive, execute_branch hlive', h.limit, evaluate_agree h cond, hchosen]

theorem executeAll_agree {o o' : Options} (h : o.Agree o') (hlive : o.cancelled = false)
    (hlive' : o'.cancelled = false) :
    (ss : List Stmt) → (∀ s ∈ ss, s.Unfenced) → executeAll o ss = executeAll o' ss
  | [], _ => by rw [executeAll, executeAll]
  | s :: ss, hs => by
      rw [executeAll, executeAll, execute_agree h hlive hlive' s (hs s List.mem_cons_self),
        executeAll_agree h hlive hlive' ss fun r hr => hs r (List.mem_cons_of_mem s hr)]

end

/-- Also a statement that has been called off. -/
theorem execute_eq_of_agree {o o' : Options} (h : o.Agree o') {s : Stmt} (hs : s.Unfenced) :
    execute o s = execute o' s := by
  by_cases hlive : o.cancelled = true
  · funext m
    rw [execute_cancelled hlive, execute_cancelled (h.cancelled.symm.trans hlive)]
  · rw [Bool.not_eq_true] at hlive
    exact execute_agree h hlive (h.cancelled.symm.trans hlive) s hs

/-! ## Programs -/

/-- Executes statements in order, each of them whatever became of those before it: how they end,
and the machine they leave behind. -/
def executions (o : Options) : List Stmt → Machine → List (Option Stop) × Machine
  | [], m => ([], m)
  | s :: ss, m =>
      let r := execute o s m
      let (stops, m') := executions o ss (Upshot.machine r)
      (Upshot.stop? r :: stops, m')

/-- Statements without declarations in their blocks end alike with scopes of blocks and without
them, one by one, and leave the same bindings and the same output behind. -/
theorem blockScope_irrelevant {stmts : List Stmt} (h : ∀ s ∈ stmts, s.Unfenced) (o : Options) :
    executions { o with blockScope := true } stmts =
      executions { o with blockScope := false } stmts ∧
    Interpreter.executeEach { o with blockScope := true } stmts =
      Interpreter.executeEach { o with blockScope := false } stmts := by
  have hagree : Options.Agree { o with blockScope := true } { o with blockScope := false } :=
    ⟨rfl, rfl, rfl⟩
  induction stmts with
  | nil => exact ⟨rfl, rfl⟩
  | cons s ss ih =>
      obtain ⟨hends, heach⟩ := ih fun r hr => h r (List.mem_cons_of_mem s hr)
      have hs := execute_eq_of_agree hagree (h s List.mem_cons_self)
      constructor
      · funext m
        rw [executions, executions, hs, hends]
      · funext p
        rw [Interpreter.executeEach, Interpreter.executeEach, hs, heach]

/-- A block that binds a new name from inside, and is then abandoned. -/
theorem abandoned_block_irrelevant :
    let x : Token := ⟨.identifier, utf8 "x", .null, 1⟩
    let y : Token := ⟨.identifier, utf8 "y", .null, 2⟩
    let z : Token := ⟨.identifier, utf8 "z", .null, 3⟩
    let stmts : List Stmt := [.declare x .absent,
      .block y [.expression (.assign y (.reference x)), .print z (.reference z)],
      .print y (.reference y)]
    let m : Machine := ⟨.ofTop .empty, .unlimited, 0, []⟩
    (∀ s ∈ stmts, s.Unfenced) ∧
      (executions { blockScope := true } stmts m).1 =
        [none, some (.fault (Diagnostic.runtime 3 (.undefinedVariable (utf8 "z")))), none] ∧
      executions { blockScope := true } stmts m = executions { blockScope := false } stmts m := by
  intro x y z stmts m
  have hstmts : ∀ s ∈ stmts, s.Unfenced := by
    simp [stmts, Stmt.Unfenced, Stmt.declaredAll, Stmt.declared]
  exact ⟨hstmts, by cbv, congrFun (blockScope_irrelevant hstmts {}).1 m⟩

end Scribe
