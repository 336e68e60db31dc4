import Scribe.Prompt.Session
import Scribe.Proofs.Machine.Expression
import Scribe.Proofs.Parse.Shape
import Scribe.Proofs.Program.Runs

/-!
# Lines that are evaluated

A line that is a bare expression is not run but evaluated, which gives its value besides. Nothing
else comes of it: bindings, output and diagnostics are those of a run of the completed line. Only
the log and the levels differ, since a statement is noted and takes a level of its own.
-/

namespace Scribe

/-- The program of a text, made for it or found in a cache that earlier calls have left. -/
inductive Program.Made (source : Bytes) (limit : Nat) : Program → Prop
  | new : Made source limit (ofSource source limit)
  | found {κ : Type} [BEq κ] (h : Hashing κ) {cache : Cache κ} (hcache : cache.Built h) :
      Made source limit (Cache.compile h cache source limit).program

theorem Program.Made.eq_ofSource {source : Bytes} {limit : Nat} {p : Program}
    (h : Made source limit p) : p = ofSource source limit := by
  cases h with
  | new => rfl
  | found h hcache => exact Cache.compile_program h hcache.sound source limit

namespace Session

/-- Nothing that an earlier line has printed is left in the output. -/
def AtPrompt (s : Session) : Prop := s.interpreter.out.taken = []

def ended (s : Session) (done : Interpreter.Outcome) : Session × Outcome :=
  ({ s with interpreter := { done.interpreter with out := done.interpreter.out.drained } },
    { output := done.interpreter.out.contents, diagnostics := done.diagnostics,
      events := done.events })

/-- A script runs without a cache, or with any cache that earlier calls have left. -/
inductive Runs (s : Session) (source : Bytes) : Session × Outcome → Prop
  | ended {done : Interpreter.Outcome} (hdone : s.interpreter.Runs source done) :
      Runs s source (s.ended done)

/-- A line is entered; its program is made for it, or found in such a cache. -/
inductive Enters (s : Session) (line : Bytes) : Session × Outcome → Prop
  | evaluated {p : Program} {e : Expr} (hp : Program.Made (completed line) defaultLimit p)
      (he : bareExpression? p = some e) : Enters s line (s.evaluate e)
  | run {p : Program} {r : Session × Outcome} (hp : Program.Made (completed line) defaultLimit p)
      (he : bareExpression? p = none) (hr : s.Runs (completed line) r) : Enters s line r

theorem runs_run (s : Session) (source : Bytes) : s.Runs source (s.run source) :=
  .ended .uncached

theorem enters_enter (s : Session) (line : Bytes) : s.Enters line (s.enter line) := by
  simp only [enter]
  cases he : bareExpression? (Program.ofSource (completed line) defaultLimit) with
  | some e => exact .evaluated .new he
  | none => exact .run .new he (s.runs_run _)

/-- The same state, output and diagnostics. The logs may differ, and so may what was written to the
sink of diagnostics, which nobody reads. -/
structure Alike (a b : Session × Outcome) : Prop where
  options : a.1.options = b.1.options
  globals : a.1.globals = b.1.globals
  settings : a.1.interpreter.options = b.1.interpreter.options
  scopes : a.1.interpreter.scopes = b.1.interpreter.scopes
  depth : a.1.interpreter.depth = b.1.interpreter.depth
  out : a.1.interpreter.out = b.1.interpreter.out
  output : a.2.output = b.2.output
  diagnostics : a.2.diagnostics = b.2.diagnostics

theorem bareExpression?_eq_some {p : Program} {e : Expr} :
    bareExpression? p = some e ↔ p.diagnostics = [] ∧ p.stmts = [.expression e] ∧
      ∀ name value, e ≠ .assign name value := by
  unfold bareExpression?
  constructor
  · intro h
    split at h
    · next hdiags hstmts =>
        split at h
        · cases h
        · next hassign =>
            cases h
            exact ⟨hdiags, hstmts, hassign⟩
    · cases h
  · rintro ⟨hdiags, hstmts, hassign⟩
    rw [hdiags, hstmts]
    cases e with
    | assign name value => exact absurd rfl (hassign name value)
    | _ => rfl

theorem bareExpression?_ne_absent {source : Bytes} {limit : Nat} {e : Expr}
    (h : bareExpression? (Program.ofSource source limit) = some e) : e ≠ .absent := by
  obtain ⟨-, hstmts, -⟩ := bareExpression?_eq_some.mp h
  have hmem : Stmt.expression e ∈ (parse (scan source).tokens limit).stmts := by
    rw [show (parse (scan source).tokens limit).stmts = [.expression e] from hstmts]
    exact List.mem_singleton_self _
  have hmade : (Stmt.expression e).MadeOf fun _ => True :=
    parse_made limit (fun _ _ => trivial) trivial _ hmem
  cases hmade with
  | expression he => cases he <;> simp

/-! ## Scripts -/

theorem Runs.alike {s : Session} {source : Bytes} {r : Session × Outcome} (h : s.Runs source r) :
    Alike r (s.run source) := by
  cases h with
  | ended hdone =>
      obtain ⟨hinterpreter, hdiags⟩ := hdone.eq_run
      constructor <;> simp only [Session.ended, Session.run, hinterpreter, hdiags]

theorem Alike.trans {a b c : Session × Outcome} (h : Alike a b) (h' : Alike b c) : Alike a c where
  options := h.options.trans h'.options
  globals := h.globals.trans h'.globals
  settings := h.settings.trans h'.settings
  scopes := h.scopes.trans h'.scopes
  depth := h.depth.trans h'.depth
  out := h.out.trans h'.out
  output := h.output.trans h'.output
  diagnostics := h.diagnostics.trans h'.diagnostics

theorem Alike.symm {a b : Session × Outcome} (h : Alike a b) : Alike b a where
  options := h.options.symm
  globals := h.globals.symm
  settings := h.settings.symm
  scopes := h.scopes.symm
  depth := h.depth.symm
  out := h.out.symm
  output := h.output.symm
  diagnostics := h.diagnostics.symm

theorem drained_of_empty {out : Sink} (h : out.taken = []) : out.drained = out := by
  cases out
  cases h
  rfl

theorem contents_of_empty {out : Sink} (h : out.taken = []) : out.contents = [] := by
  rw [Sink.contents, h]
  rfl

/-! ## Bare expressions -/

/-- How an evaluation at the prompt ends: with a value or with a fault, and nothing is written. -/
theorem evaluate_cases (s : Session) (e : Expr) : ∃ m : Machine, m.out = s.interpreter.out ∧
    ((∃ v, Scribe.evaluate s.interpreter.options e s.interpreter.machine = .ok v m ∧
        s.evaluate e = ({ s with interpreter := (s.interpreter.after m).1 }, { value := some v })) ∨
      ∃ d, Scribe.evaluate s.interpreter.options e s.interpreter.machine = .error (.fault d) m ∧
        s.evaluate e =
          ({ s with interpreter := (s.interpreter.after m).1 }, { diagnostics := [d] })) := by
  have hout := evaluate_out s.interpreter.options e s.interpreter.machine
  have hsettles := evaluate_settles s.interpreter.options e s.interpreter.machine
  simp only [evaluate, Interpreter.evaluate]
  cases hvalue : Scribe.evaluate s.interpreter.options e s.interpreter.machine with
  | ok v m =>
      rw [hvalue] at hout
      exact ⟨m, hout, .inl ⟨v, rfl, rfl⟩⟩
  | error stop m =>
      rw [hvalue] at hout hsettles
      obtain ⟨d, -, rfl⟩ := hsettles stop rfl
      exact ⟨m, hout, .inr ⟨d, rfl, rfl⟩⟩

theorem evaluate_value (s : Session) (e : Expr) (v : Value) :
    (s.evaluate e).2.value = some v ↔ (s.interpreter.evaluate e).1 = .ok v := by
  obtain ⟨m, -, ⟨w, hvalue, hs⟩ | ⟨d, hvalue, hs⟩⟩ := s.evaluate_cases e
  all_goals simp [hs, Interpreter.evaluate, hvalue]

theorem ended_expression (s : Session) {p : Program} {e : Expr} (hdiags : p.diagnostics = [])
    (hstmts : p.stmts = [.expression e]) (hprompt : s.AtPrompt)
    (hrun : execute s.interpreter.options (.expression e) s.interpreter.machine =
      Upshot.noted ((Stmt.expression e).event e.line)
        (Scribe.evaluate s.interpreter.options e s.interpreter.machine)) :
    Alike (s.evaluate e) (s.ended (s.interpreter.runProgram p)) := by
  obtain ⟨m, hout, ⟨v, hvalue, hs⟩ | ⟨d, hvalue, hs⟩⟩ := s.evaluate_cases e
  all_goals
    have hempty : m.out.taken = [] := hout ▸ hprompt
    simp only [hs, ended, Interpreter.runProgram, hdiags, hstmts, Interpreter.executeEach, hrun,
      hvalue, Upshot.noted]
    exact ⟨rfl, rfl, rfl, rfl, rfl, (drained_of_empty hempty).symm,
      (contents_of_empty hempty).symm, rfl⟩

theorem not_tooDeep_of_calm {i : Interpreter} {p : Program} {e : Expr}
    (hstmts : p.stmts = [.expression e])
    (hcalm : ∀ d ∈ (i.runProgram p).diagnostics, d.cause ≠ .runtime .nestingTooDeep) :
    ¬ Upshot.TooDeep (execute i.options (.expression e) i.machine) := by
  rintro ⟨line, m, hrun⟩
  refine hcalm (Diagnostic.runtime line .nestingTooDeep) ?_ rfl
  simp [Interpreter.runProgram, hstmts, Interpreter.executeEach, hrun, Interpreter.Progress.note]

/-- A bare expression leaves what a run of it leaves, unless the run has too few levels. -/
theorem evaluate_alike_run {s : Session} (hlimit : s.interpreter.options.limit = defaultLimit)
    (hlive : s.interpreter.options.cancelled = false) (hprompt : s.AtPrompt) {source : Bytes}
    {e : Expr} (he : bareExpression? (Program.ofSource source defaultLimit) = some e)
    (hcalm : ∀ d ∈ (s.run source).2.diagnostics, d.cause ≠ .runtime .nestingTooDeep) :
    Alike (s.evaluate e) (s.run source) := by
  obtain ⟨hdiags, hstmts, -⟩ := bareExpression?_eq_some.mp he
  have hrun : execute s.interpreter.options (.expression e) s.interpreter.machine =
      Upshot.noted ((Stmt.expression e).event e.line)
        (Scribe.evaluate s.interpreter.options e s.interpreter.machine) := by
    refine execute_expression_noted hlive (bareExpression?_ne_absent he) ?_
    refine not_tooDeep_of_calm hstmts ?_
    simpa only [run, Interpreter.run, hlimit] using hcalm
  have halike := s.ended_expression hdiags hstmts hprompt hrun
  simp only [run, Interpreter.run, hlimit]
  exact ⟨halike.options, halike.globals, halike.settings, halike.scopes, halike.depth, halike.out,
    halike.output, halike.diagnostics⟩

/-! ## The prompt -/

theorem atPrompt_start (options : Options) (globals : List (Bytes × Value)) :
    (start options globals).AtPrompt := rfl

theorem Runs.atPrompt {s : Session} {source : Bytes} {r : Session × Outcome}
    (h : s.Runs source r) : r.1.AtPrompt := by
  cases h
  rfl

/-- A session that is at its prompt is so again after a line. -/
theorem Enters.atPrompt {s : Session} (hprompt : s.AtPrompt) {line : Bytes}
    {r : Session × Outcome} (h : s.Enters line r) : r.1.AtPrompt := by
  cases h with
  | run _ _ hr => exact hr.atPrompt
  | @evaluated p e _ _ =>
      obtain ⟨m, hout, ⟨v, -, hs⟩ | ⟨d, -, hs⟩⟩ := s.evaluate_cases e
      all_goals
        rw [hs]
        exact (congrArg Sink.taken hout).trans hprompt

/-- Only a bare expression has a value. -/
theorem Enters.value {s : Session} {line : Bytes} {r : Session × Outcome} (h : s.Enters line r)
    (v : Value) : r.2.value = some v ↔
      ∃ e, bareExpression? (Program.ofSource (completed line) defaultLimit) = some e ∧
        (s.interpreter.evaluate e).1 = .ok v := by
  cases h with
  | @evaluated p e hp he =>
      rw [hp.eq_ofSource] at he
      rw [evaluate_value]
      constructor
      · exact fun hv => ⟨e, he, hv⟩
      · rintro ⟨e', he', hv⟩
        cases he.symm.trans he'
        exact hv
  | run hp he hr =>
      rw [hp.eq_ofSource] at he
      cases hr
      constructor
      · nofun
      · rintro ⟨e', he', -⟩
        cases he.symm.trans he'

/-- A line leaves the bindings, the output and the diagnostics of a run of the completed line, as
long as that run has levels enough. There is a value exactly if the line is a bare expression and
its evaluation succeeds, and it is the value of the evaluation. -/
theorem enters_alike_run {s : Session} (hlimit : s.interpreter.options.limit = defaultLimit)
    (hlive : s.interpreter.options.cancelled = false) (hprompt : s.AtPrompt) {line : Bytes}
    {entered ran : Session × Outcome} (hentered : s.Enters line entered)
    (hran : s.Runs (completed line) ran)
    (hcalm : ∀ d ∈ ran.2.diagnostics, d.cause ≠ .runtime .nestingTooDeep) :
    Alike entered ran ∧ entered.1.AtPrompt ∧ ∀ v, entered.2.value = some v ↔
      ∃ e, (Program.ofSource (completed line) defaultLimit).diagnostics = [] ∧
        (Program.ofSource (completed line) defaultLimit).stmts = [.expression e] ∧
        (∀ name value, e ≠ .assign name value) ∧ (s.interpreter.evaluate e).1 = .ok v := by
  rw [hran.alike.diagnostics] at hcalm
  refine ⟨?_, hentered.atPrompt hprompt, fun v => ?_⟩
  · cases hentered with
    | @evaluated p e hp he =>
        rw [hp.eq_ofSource] at he
        exact (evaluate_alike_run hlimit hlive hprompt he hcalm).trans hran.alike.symm
    | run _ _ hr => exact hr.alike.trans hran.alike.symm
  · rw [hentered.value]
    simp only [bareExpression?_eq_some, and_assoc]

/-- An assignment inside of an expression is made once, whether the line is evaluated or run. -/
theorem inner_assignment_alike :
    let s := start { blockScope := true } [(utf8 "y", .null)]
    let line := utf8 " !(x = y) "
    Alike (s.enter line) (s.run (utf8 "!(x = y);")) ∧
      (s.enter line).1.bindings.entries = [(utf8 "x", .null), (utf8 "y", .null)] ∧
      (s.enter line).2.value = some (.boolean true) := by
  intro s line
  have hline : completed line = utf8 "!(x = y);" := by cbv
  have hdiags : (s.run (completed line)).2.diagnostics = [] := by cbv
  have hcalm : ∀ d ∈ (s.run (completed line)).2.diagnostics,
      d.cause ≠ .runtime .nestingTooDeep := by
    rw [hdiags]
    intro d hd
    cases hd
  obtain ⟨halike, -, -⟩ := enters_alike_run rfl rfl (atPrompt_start _ _) (s.enters_enter line)
    (s.runs_run (completed line)) hcalm
  rw [hline] at halike
  exact ⟨halike, by cbv, by cbv⟩

end Session

end Scribe
