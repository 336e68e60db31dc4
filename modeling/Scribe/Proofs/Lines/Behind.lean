import Scribe.Proofs.Lines.Program
import Scribe.Proofs.Parse.Append
import Scribe.Proofs.Program.Runs

/-!
# One script behind another

A script without errors and another one on the lines behind it do, as one script, what they do as
two, one after the other. Diagnostics of the second stand as many lines further down as the first
one has.
-/

namespace Scribe

/-- One line more than there are line feeds. -/
def Bytes.lineCount (text : Bytes) : Nat := 1 + text.count lineFeed

def Below (lines : Nat) (a b : Int) : Prop := b = a + lines

def Diagnostic.moved (lines : Nat) (d : Diagnostic) : Diagnostic :=
  { d with line := d.line + lines }

theorem Diagnostic.Alike.eq_moved {lines : Nat} {phase : Phase} {d e : Diagnostic}
    (h : d.Alike (Below lines) phase e) : e = d.moved lines := by
  obtain ⟨⟨hd, he⟩, hplace, hcause, hline, -⟩ := h
  obtain ⟨_, _, _, _⟩ := d
  obtain ⟨_, _, _, _⟩ := e
  simp_all [Diagnostic.moved, Below]

theorem eq_map_moved {lines : Nat} {phase : Phase} {ds es : List Diagnostic}
    (h : List.Forall₂ (Diagnostic.Alike (Below lines) phase) ds es) :
    es = ds.map (Diagnostic.moved lines) := by
  induction h with
  | nil => rfl
  | cons hd _ ih => rw [List.map_cons, ← ih, hd.eq_moved]

theorem shifted_below (lines feeds : Nat) : Scan.Shifted (Below lines) 1 (1 + lines) feeds := by
  intro j _
  simp only [Below]
  omega

/-- The tokens that are left at two cursors, one text behind the other. -/
def Parse.Cursor.followedBy (c d : Cursor) : Cursor := ⟨c.rest ++ d.rest, d.finish, []⟩

/-- If the first text parses without reports and the second does not begin with `else`, the
statements of the first stand in front of those of the second. -/
theorem Parse.program_followedBy (limit : Nat) {c d : Cursor} (hc : c.finish.isEnd)
    (hd : d.finish.isEnd) (hreports : c.reports = [] ∧ d.reports = [])
    (hquiet : (program limit c).2.reports = []) (helse : ∀ t ∈ d.rest.head?, t.kind ≠ .kwElse) :
    program limit (c.followedBy d) =
      ((program limit c).1 ++ (program limit d).1, (program limit d).2) := by
  let k : Context := ⟨d.rest, d.finish, [], hd⟩
  have hk : k.Detached := helse
  have hinto : c.into k = c.followedBy d := by
    simp [Cursor.into, Cursor.followedBy, k, hreports.1]
  have hbehind : (program limit c).2.into k = d := by
    rw [Cursor.into, program_rest limit hc, hquiet]
    show (⟨d.rest, d.finish, []⟩ : Cursor) = d
    rw [← hreports.2]
  have hrun := program_into limit k (fun c hc => sameIn_of_quiet hk hc)
    (hquiet.trans hreports.1.symm) hc
  rwa [hinto, hbehind] at hrun

theorem head_kind_ne {L : Int → Int → Prop} {ts us : List Token}
    (h : List.Forall₂ (Token.Alike L) ts us) {kind : TokenKind}
    (hts : ∀ t ∈ ts.head?, t.kind ≠ kind) : ∀ u ∈ us.head?, u.kind ≠ kind := by
  cases h with
  | nil => exact hts
  | cons ht _ => simpa [ht.kind] using hts

section Programs

variable {first second : Bytes} {limit : Nat}

theorem start_append (hclean : (scan first).faults = []) :
    Program.start 1 (first ++ Bytes.lineFeed :: second) =
      (Program.start 1 first).followedBy
        (Program.start (1 + first.lineCount) second) := by
  have hlast : 1 + (first ++ Bytes.lineFeed :: second).count Bytes.lineFeed =
      1 + first.lineCount + second.count Bytes.lineFeed := by
    rw [List.count_append, List.count_cons_self, Bytes.lineCount]
    omega
  rw [Program.start, reading_append hclean, hlast, Nat.add_comm (1 + _) 1]
  simp only [Scan.Result.cursor, Scan.Result.behind, List.reverse_append]
  rfl

theorem start_head_ne_else (helse : ∀ t ∈ (scan second).tokens.head?, t.kind ≠ .kwElse)
    (lines : Nat) : ∀ t ∈ (Program.start (1 + lines) second).rest.head?, t.kind ≠ .kwElse := by
  have hread := Scan.reading_alike (shifted_below lines (second.count Bytes.lineFeed))
  refine head_kind_ne (List.rel_reverse hread.tokens) ?_
  intro t ht
  rw [scan_eq] at helse
  refine helse t ?_
  simp only [Scan.Result.closed, List.head?_append]
  rw [ht]
  rfl

/-- The second script makes up the end of the one script as if it stood there alone. -/
theorem ofSource_append (hclean : (Program.ofSource first limit).diagnostics = [])
    (helse : ∀ t ∈ (scan second).tokens.head?, t.kind ≠ .kwElse) :
    let both := Program.ofSource (first ++ Bytes.lineFeed :: second) limit
    let later := Program.fromLine (1 + first.lineCount) second limit
    both.stmts = (Program.ofSource first limit).stmts ++ later.stmts ∧
      both.faults = later.faults ∧ both.reports = later.reports := by
  rw [Program.ofSource_eq] at hclean
  obtain ⟨hfaults, hreports⟩ := List.append_eq_nil_iff.mp hclean
  have hscan : (scan first).faults = [] := by
    rw [scan_eq]
    exact hfaults
  have hread := reading_append hscan second
  have hparse := Parse.program_followedBy limit (c := Program.start 1 first)
    (d := Program.start (1 + first.lineCount) second) rfl rfl ⟨rfl, rfl⟩
    (List.reverse_eq_nil_iff.mp hreports) (start_head_ne_else helse _)
  rw [← start_append hscan] at hparse
  intro both later
  simp only [both, later, Program.ofSource_eq]
  refine ⟨?_, ?_, ?_⟩
  · exact congrArg Prod.fst hparse
  · rw [Program.fromLine, Program.fromLine, hread, Nat.add_comm (1 + _) 1]
    simp only [Scan.Result.behind, List.reverse_append]
    exact (congrArg (· ++ _) hfaults).trans (List.nil_append _)
  · exact congrArg (·.2.reports.reverse) hparse

theorem second_alike (first second : Bytes) (limit : Nat) :
    (Program.ofSource second limit).Alike (Below first.lineCount)
      (Program.fromLine (1 + first.lineCount) second limit) := by
  rw [Program.ofSource_eq]
  exact Program.fromLine_alike (shifted_below _ _) limit

theorem diagnostics_append (hclean : (Program.ofSource first limit).diagnostics = [])
    (helse : ∀ t ∈ (scan second).tokens.head?, t.kind ≠ .kwElse) :
    (Program.ofSource (first ++ Bytes.lineFeed :: second) limit).diagnostics =
      (Program.ofSource second limit).diagnostics.map
        (Diagnostic.moved first.lineCount) := by
  obtain ⟨-, hfaults, hreports⟩ := ofSource_append hclean helse
  have hsecond := second_alike first second limit
  rw [Program.diagnostics, Program.diagnostics, hfaults, hreports, List.map_append,
    ← eq_map_moved hsecond.faults, ← eq_map_moved hsecond.reports]

end Programs

/-! ## Runs -/

theorem ofSource_whole (source : Bytes) (limit : Nat) :
    (Program.ofSource source limit).Alike (fun _ _ => True) (Program.ofSource source limit) :=
  Program.ofSource_alike (fun _ _ => trivial) limit

theorem phase_of_alike {L : Int → Int → Prop} {phase : Phase} {ds : List Diagnostic}
    (h : List.Forall₂ (Diagnostic.Alike L phase) ds ds) : ∀ d ∈ ds, d.phase = phase :=
  fun d hd => (List.forall₂_same.mp h d hd).phase.1

/-- The diagnostics of a program are told by their phases from the faults of its run. -/
theorem run_filter (i : Interpreter) (source : Bytes) :
    let p := Program.ofSource source i.options.limit
    (i.run source).diagnostics.filter (·.phase ≠ .runtime) = p.diagnostics ∧
      (i.run source).diagnostics.filter (·.phase = .runtime) = (i.executed p).faults.reverse := by
  intro p
  have hp := ofSource_whole source i.options.limit
  have hprogram : ∀ d ∈ p.diagnostics, d.phase ≠ .runtime := by
    intro d hd
    rcases List.mem_append.mp hd with hd | hd
    · simp [phase_of_alike hp.faults d hd]
    · simp [phase_of_alike hp.reports d hd]
  have hfaults : ∀ d ∈ (i.executed p).faults.reverse, d.phase = .runtime := by
    intro d hd
    exact phase_of_alike (i.executed_alike hp) d (List.mem_reverse.mp hd)
  have hall : (i.run source).diagnostics = p.diagnostics ++ (i.executed p).faults.reverse := rfl
  rw [hall, List.filter_append, List.filter_append]
  constructor
  · rw [List.filter_eq_self.mpr (by simpa using hprogram),
      List.filter_eq_nil_iff.mpr (by simpa using hfaults), List.append_nil]
  · rw [List.filter_eq_nil_iff.mpr (by simpa using hprogram),
      List.filter_eq_self.mpr (by simpa using hfaults), List.nil_append]

section Runs

variable {i : Interpreter} {first second : Bytes} (hlive : i.options.cancelled = false)
  (hclean : (Program.ofSource first i.options.limit).diagnostics = [])
  (helse : ∀ t ∈ (scan second).tokens.head?, t.kind ≠ .kwElse)
include hlive hclean helse

/-- Executing the one script is executing the first and then, from where that ends, the second. -/
theorem executed_append :
    let one := i.executed (Program.ofSource first i.options.limit)
    let two := (i.run first).interpreter.executed (Program.ofSource second i.options.limit)
    let both := i.executed (Program.ofSource (first ++ Bytes.lineFeed :: second) i.options.limit)
    two.machine.Same both.machine ∧
      both.faults =
        two.faults.map (Diagnostic.moved first.lineCount) ++ one.faults := by
  intro one two both
  let later := Program.fromLine (1 + first.lineCount) second i.options.limit
  have hboth : both = Interpreter.executeEach i.options later.stmts one := by
    have hwhole := (ofSource_whole first i.options.limit).stmts
    simp only [both, Interpreter.executed]
    rw [(ofSource_append hclean helse).1, Interpreter.executeEach_append hlive hwhole]
    rfl
  have hsecond := second_alike first second i.options.limit
  -- The second run starts from the machine that the first one has left, with a log of its own.
  have halike : Interpreter.Progress.Alike (Below first.lineCount) two
      (Interpreter.executeEach i.options later.stmts ⟨one.machine, []⟩) :=
    Interpreter.executeEach_alike i.options hsecond.stmts ⟨⟨rfl, rfl, rfl⟩, .nil⟩
  rw [hboth, Interpreter.executeEach_behind]
  exact ⟨halike.machine, congrArg (· ++ one.faults) (eq_map_moved halike.faults)⟩

/-- Two scripts one after the other, the first of which compiles without diagnostics, write what
they write as one script and leave the same bindings. The diagnostics that the one script has before
it is run are those of the second; those of its run are those of both. -/
theorem runs_append {one two both : Interpreter.Outcome} (hone : i.Runs first one)
    (htwo : one.interpreter.Runs second two)
    (hboth : i.Runs (first ++ Bytes.lineFeed :: second) both) :
    let lines := 1 + first.count Bytes.lineFeed
    both.interpreter.out = two.interpreter.out ∧
      both.interpreter.scopes = two.interpreter.scopes ∧
      both.diagnostics.filter (·.phase ≠ .runtime) =
        (two.diagnostics.filter (·.phase ≠ .runtime)).map (Diagnostic.moved lines) ∧
      both.diagnostics.filter (·.phase = .runtime) =
        one.diagnostics ++
          (two.diagnostics.filter (·.phase = .runtime)).map (Diagnostic.moved lines) := by
  intro lines
  obtain ⟨hone, hones⟩ := hone.eq_run
  obtain ⟨htwo, htwos⟩ := htwo.eq_run
  obtain ⟨hboth, hboths⟩ := hboth.eq_run
  rw [hone] at htwo htwos
  obtain ⟨hsame, hfaults⟩ := executed_append hlive hclean helse
  obtain ⟨hbothProgram, hbothFaults⟩ := run_filter i (first ++ Bytes.lineFeed :: second)
  obtain ⟨htwoProgram, htwoFaults⟩ := run_filter (i.run first).interpreter second
  rw [hboth, hboths, hones, htwo, htwos, hbothProgram, hbothFaults, htwoProgram, htwoFaults]
  refine ⟨hsame.out.symm, hsame.scopes.symm, diagnostics_append hclean helse, ?_⟩
  have hall : (i.run first).diagnostics =
      (Program.ofSource first i.options.limit).diagnostics ++
        (i.executed (Program.ofSource first i.options.limit)).faults.reverse := rfl
  rw [hall, hclean, List.nil_append, hfaults, List.reverse_append, List.map_reverse]
  rfl

end Runs

/-- A line that prints and goes wrong, and one with an error of each phase. -/
theorem prompt_lines_append :
    let i := Interpreter.ofOptions { limit := 8 }
    let first := utf8 "print nil; x;"
    let second := utf8 "y; @ let ;"
    let two := (i.run first).interpreter.run second
    let both := i.run (first ++ Bytes.lineFeed :: second)
    both.interpreter.out = two.interpreter.out ∧
      both.interpreter.scopes = two.interpreter.scopes ∧
      both.diagnostics.filter (·.phase ≠ .runtime) =
        (two.diagnostics.filter (·.phase ≠ .runtime)).map (Diagnostic.moved 1) ∧
      both.diagnostics.filter (·.phase = .runtime) =
        (i.run first).diagnostics ++
          (two.diagnostics.filter (·.phase = .runtime)).map (Diagnostic.moved 1) := by
  intro i first second two both
  have hclean : (Program.ofSource first i.options.limit).diagnostics = [] := by cbv
  have hkinds : (scan second).tokens.head?.map Token.kind = some .identifier := by cbv
  have helse : ∀ t ∈ (scan second).tokens.head?, t.kind ≠ .kwElse := by
    intro t ht
    rw [Option.mem_def.mp ht, Option.map_some, Option.some.injEq] at hkinds
    rw [hkinds]
    decide
  exact runs_append rfl hclean helse .uncached .uncached .uncached

end Scribe
