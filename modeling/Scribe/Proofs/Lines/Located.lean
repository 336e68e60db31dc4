import Scribe.Proofs.Lines.Program
import Scribe.Proofs.Program.Runs

/-!
# Where diagnostics stand

Every diagnostic of a script stands on a line of the script, and none is of a kind that only a tree
built by hand can lead to.
-/

namespace Scribe

/-- One line, among the first `lines` ones. -/
def Within (lines : Nat) (a b : Int) : Prop := a = b ∧ 1 ≤ a ∧ a ≤ lines

theorem shifted_within (feeds : Nat) : Scan.Shifted (Within (1 + feeds)) 1 1 feeds := by
  intro j hj
  refine ⟨rfl, ?_, ?_⟩ <;> omega

/-! ## Messages -/

theorem RuntimeCause.message_scripted {cause : RuntimeCause} (h : cause.isInternal = false) :
    cause.message.startsWith (utf8 "Missing ") = false ∧
      cause.message.startsWith (utf8 "Unknown ") = false := by
  cases cause with
  | missingStatement | missingExpression | unknownUnary op | unknownBinary op => cases h
  | nestingTooDeep | undefinedVariable name | operandsNotAddable | outputFailed reason =>
      exact ⟨rfl, rfl⟩
  | operandNotNumber op | operandsNotNumbers op => cases op <;> exact ⟨rfl, rfl⟩

theorem Cause.message_scripted {cause : Cause} (h : cause.isInternal = false) :
    cause.message.startsWith (utf8 "Missing ") = false ∧
      cause.message.startsWith (utf8 "Unknown ") = false := by
  cases cause with
  | lexical cause =>
      cases cause <;> simp only [message, LexicalCause.message, List.append_assoc] <;>
        exact ⟨rfl, rfl⟩
  | syntactic cause => cases cause <;> exact ⟨rfl, rfl⟩
  | runtime cause => exact RuntimeCause.message_scripted h
  | told message => cases h

/-- How the messages start that only a tree built by hand can lead to. -/
def internalMessages : List String :=
  ["Missing statement.", "Missing expression.", "Unknown statement ", "Unknown expression ",
    "Unknown unary operator ", "Unknown binary operator "]

theorem internalMessages_start : ∀ message ∈ internalMessages,
    (utf8 message).startsWith (utf8 "Missing ") = true ∨
      (utf8 message).startsWith (utf8 "Unknown ") = true := by
  decide

theorem startsWith_trans {text start longer : Bytes} (h : text.startsWith longer = true)
    (hlonger : longer.startsWith start = true) : text.startsWith start = true := by
  simp only [Bytes.startsWith, List.isPrefixOf_iff_prefix] at h hlonger ⊢
  exact hlonger.trans h

theorem not_internalMessages {cause : Cause} (h : cause.isInternal = false) :
    ∀ message ∈ internalMessages, cause.message.startsWith (utf8 message) = false := by
  intro message hmem
  obtain ⟨hmissing, hunknown⟩ := Cause.message_scripted h
  by_contra hstart
  rw [Bool.not_eq_false] at hstart
  rcases internalMessages_start message hmem with hfirst | hfirst
  · rw [startsWith_trans hstart hfirst] at hmissing
    cases hmissing
  · rw [startsWith_trans hstart hfirst] at hunknown
    cases hunknown

/-! ## Scripts -/

/-- Each diagnostic corresponds to itself, in whichever phase it arose. -/
theorem diagnostics_alike {L : Int → Int → Prop} (i : Interpreter) {source : Bytes}
    (hlines : Scan.Shifted L 1 1 (source.count Bytes.lineFeed)) :
    ∀ d ∈ (i.run source).diagnostics, ∃ phase, d.Alike L phase d := by
  have hp := Program.ofSource_alike hlines i.options.limit
  intro d hd
  change d ∈ (i.runProgram (Program.ofSource source i.options.limit)).diagnostics at hd
  rw [Interpreter.runProgram_diagnostics, List.mem_append, List.mem_append, List.mem_reverse] at hd
  rcases hd with (hd | hd) | hd
  · exact ⟨_, List.forall₂_same.mp hp.faults d hd⟩
  · exact ⟨_, List.forall₂_same.mp hp.reports d hd⟩
  · exact ⟨_, List.forall₂_same.mp (i.executed_alike hp) d hd⟩

theorem execute_ne_lineless (o : Options) {L : Int → Int → Prop} {s : Stmt} (hs : s.Alike L s)
    (m m' : Machine) : execute o s m ≠ .error .lineless m' := by
  intro hrun
  by_cases hlive : o.cancelled = true
  · rw [execute_cancelled hlive] at hrun
    cases hrun
  · have halike := execute_alike (by simpa using hlive) s hs m m ⟨rfl, rfl, rfl⟩
    rw [hrun] at halike
    cases halike

/-- The diagnostics of a script stand on its lines and do not tell of trees built by hand, and each
of its statements has a line. -/
theorem run_located {i : Interpreter} {source : Bytes} {outcome : Interpreter.Outcome}
    (hrun : i.Runs source outcome) :
    (∀ d ∈ outcome.diagnostics,
      1 ≤ d.line ∧ d.line ≤ 1 + source.count Bytes.lineFeed ∧
        ∀ message ∈ internalMessages, d.message.startsWith (utf8 message) = false) ∧
    ∀ s ∈ (Program.ofSource source i.options.limit).stmts, ∀ m m' : Machine,
      execute i.options s m ≠ .error .lineless m' := by
  have hlines := shifted_within (source.count Bytes.lineFeed)
  constructor
  · intro d hd
    rw [hrun.eq_run.2] at hd
    obtain ⟨phase, hself⟩ := diagnostics_alike i hlines d hd
    obtain ⟨-, hfirst, hlast⟩ := hself.line
    exact ⟨hfirst, by simpa using hlast, not_internalMessages hself.scripted⟩
  · intro s hs m m'
    have hp := Program.ofSource_alike hlines i.options.limit
    exact execute_ne_lineless i.options (List.forall₂_same.mp hp.stmts s hs) m m'

/-- The second line of this script names a variable that there is not. -/
theorem undefined_located :
    let i := Interpreter.ofOptions {}
    let source := utf8 "print nil;\nx;"
    let d := Diagnostic.runtime 2 (.undefinedVariable (utf8 "x"))
    d ∈ (i.run source).diagnostics ∧ 1 ≤ d.line ∧ d.line ≤ 1 + source.count Bytes.lineFeed ∧
      ∀ message ∈ internalMessages, d.message.startsWith (utf8 message) = false := by
  intro i source d
  have hd : (i.run source).diagnostics = [d] := by cbv
  have hmem : d ∈ (i.run source).diagnostics := by rw [hd]; exact List.mem_singleton_self d
  exact ⟨hmem, (run_located .uncached).1 d hmem⟩

end Scribe
