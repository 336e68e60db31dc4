import Scribe.Proofs.Machine.Faults
import Scribe.Proofs.Program.Runs
import Scribe.Proofs.Text.Cut
import Scribe.Proofs.Text.Pieces
import Scribe.Proofs.Token.Rescan
import Scribe.Proofs.Value.Display

/-!
# Diagnostics as lines

The diagnostics of a script are written one behind the other, a line feed behind each. Whether they
can be read again line by line depends on what they quote: a syntax error quotes the token at which
it stands, and this may be a string over several lines; a fault may quote the reason of a sink.
Nothing else that is quoted holds a line feed.
-/

namespace Scribe

/-! ## Texts written as lines -/

namespace Bytes

def lined (texts : List Bytes) : Bytes := texts.flatMap (· ++ [lineFeed])

@[simp] theorem lined_cons (text : Bytes) (texts : List Bytes) :
    lined (text :: texts) = text ++ lineFeed :: lined texts := by
  simp [lined]

theorem count_lined (texts : List Bytes) :
    (lined texts).count lineFeed = texts.length + (texts.map (List.count lineFeed)).sum := by
  induction texts with
  | nil => rfl
  | cons text texts ih =>
      rw [lined_cons, List.count_append, List.count_cons_self, ih, List.length_cons, List.map_cons,
        List.sum_cons]
      omega

theorem splitOn_lined {texts : List Bytes} (h : ∀ text ∈ texts, lineFeed ∉ text) :
    splitOn lineFeed (lined texts) = texts ++ [[]] := by
  induction texts with
  | nil => exact splitOn_of_not_mem List.not_mem_nil
  | cons text texts ih =>
      rw [List.forall_mem_cons] at h
      rw [lined_cons, splitOn_append h.1, ih h.2, List.cons_append]

/-- Texts are the lines of what is written exactly when each of them is one line. -/
theorem splitOn_lined_iff (texts : List Bytes) :
    ((lined texts).count lineFeed = texts.length ∧
      splitOn lineFeed (lined texts) = texts ++ [[]]) ↔ ∀ text ∈ texts, lineFeed ∉ text := by
  constructor
  · rintro ⟨-, hlines⟩ text htext
    have hpiece : text ∈ splitOn lineFeed (lined texts) := by
      rw [hlines]
      exact List.mem_append_left _ htext
    exact not_mem_of_mem_splitOn hpiece
  · intro h
    refine ⟨?_, splitOn_lined h⟩
    have hzero : ∀ n ∈ texts.map (List.count lineFeed), n = 0 := by
      simpa [List.count_eq_zero] using h
    rw [count_lined, List.sum_eq_zero hzero, Nat.add_zero]

theorem lineFeed_not_mem_ofNat (n : Nat) : lineFeed ∉ ofNat n :=
  Decimal.not_mem_digits (ofNat_digits n) (by decide)

theorem lineFeed_not_mem_ofInt (n : Int) : lineFeed ∉ ofInt n := by
  cases n with
  | ofNat n => exact lineFeed_not_mem_ofNat n
  | negSucc n =>
      simp only [ofInt, List.mem_cons, not_or]
      exact ⟨by decide, lineFeed_not_mem_ofNat _⟩

theorem lineFeed_mem_utf8Char {c : Char} (h : lineFeed ∈ utf8Char c) : c = '\n' :=
  char_of_mem_utf8Char h (by decide)

end Bytes

/-! ## What a script can spell -/

theorem Lexeme.oneLine {kind : TokenKind} {text : Bytes} {v : Value} (h : Lexeme kind text v)
    (hkind : kind ≠ .string) : Bytes.lineFeed ∉ text := by
  have hmarks : ∀ entry ∈ TokenKind.marks, Bytes.lineFeed ∉ entry.2 := by decide
  cases h with
  | mark hmark => exact hmarks _ hmark
  | number hplain _ => exact Value.lineFeed_not_mem_plain hplain
  | string _ => exact absurd rfl hkind
  | @word _ r rs hrunes hstart hmore =>
      have hword : ∀ s ∈ text.runes, Scan.continuesWord s.char = true := by
        rw [hrunes]
        refine List.forall_mem_cons.mpr ⟨?_, hmore⟩
        rw [Scan.continuesWord, hstart, Bool.true_or]
      intro hfeed
      exact absurd (hword _ ((Bytes.mem_runes_ascii (by decide)).mpr hfeed)) (by decide)

theorem TokenKind.lineFeed_not_mem_name (kind : TokenKind) : Bytes.lineFeed ∉ kind.name := by
  cases kind with
  | unnamed code =>
      have hcode := Bytes.lineFeed_not_mem_ofInt code
      have hshell : Bytes.lineFeed ∉ utf8 "TokenKind(" ∧ Bytes.lineFeed ∉ utf8 ")" := by decide
      simp only [TokenKind.name, List.mem_append, not_or]
      exact ⟨⟨hshell.1, hcode⟩, hshell.2⟩
  | _ => decide

/-- Every diagnostic of a scan is a lexical one that quotes no line feed. -/
theorem Scan.Accounted.faults_oneLine {source : Bytes} {place : Nat} {ts : List Token}
    {ds : List Diagnostic} (h : Accounted source place ts ds) : ∀ d ∈ ds, ∃ (line : Int)
      (cause : LexicalCause), d = .lexical line cause ∧ Bytes.lineFeed ∉ cause.message := by
  induction h with
  | finish => exact List.forall_mem_nil _
  | token _ _ _ _ _ ih => exact ih
  | blank _ _ _ ih => exact ih
  | comment _ _ _ _ _ ih => exact ih
  | rejected _ hcause _ ih =>
      refine List.forall_mem_cons.mpr ⟨⟨_, _, rfl, ?_⟩, ih⟩
      cases hcause with
      | alone hchar _ => rcases hchar with hchar | hchar <;> rw [hchar] <;> decide
      | unexpected hchar =>
          have hquoted : ∀ c, Scan.startsItem c = false → Bytes.lineFeed ∉ utf8Char c := by
            intro c hc hfeed
            rw [Bytes.lineFeed_mem_utf8Char hfeed] at hc
            cases hc
          have hshell : Bytes.lineFeed ∉ utf8 "Unexpected character '" ∧
              Bytes.lineFeed ∉ utf8 "'." := by decide
          simp only [LexicalCause.message, List.mem_append, not_or]
          exact ⟨⟨hshell.1, hquoted _ hchar⟩, hshell.2⟩
  | unterminated _ _ =>
      refine List.forall_mem_singleton.mpr ⟨_, _, rfl, by decide⟩

/-! ## What a diagnostic quotes -/

namespace Diagnostic

/-- The rest of a diagnostic holds no line feed. -/
theorem lineFeed_mem_text {d : Diagnostic} :
    Bytes.lineFeed ∈ d.text ↔ Bytes.lineFeed ∈ d.place ∨ Bytes.lineFeed ∈ d.message := by
  have hline : Bytes.lineFeed ∉
      (if 0 < d.line then utf8 "[line " ++ Bytes.ofInt d.line ++ utf8 "] " else []) := by
    have hshell : Bytes.lineFeed ∉ utf8 "[line " ∧ Bytes.lineFeed ∉ utf8 "] " := by decide
    split
    · simp only [List.mem_append, not_or]
      exact ⟨⟨hshell.1, Bytes.lineFeed_not_mem_ofInt d.line⟩, hshell.2⟩
    · exact List.not_mem_nil
  have hphase : Bytes.lineFeed ∉ utf8 d.phase.name := by
    cases d.phase <;> simp only [Phase.name] <;> decide
  have hshell : Bytes.lineFeed ∉ utf8 " error" ∧ Bytes.lineFeed ∉ utf8 ": " := by decide
  simp only [text, List.mem_append, hline, hphase, hshell, false_or, or_false]

theorem lineFeed_mem_placeOf (t : Token) (hend : t.isEnd = true → t.lexeme = []) :
    Bytes.lineFeed ∈ placeOf t ↔ Bytes.lineFeed ∈ t.lexeme := by
  have hshell : Bytes.lineFeed ∉ utf8 " at end" ∧ Bytes.lineFeed ∉ utf8 " at '" ∧
      Bytes.lineFeed ∉ utf8 "'" := by decide
  unfold placeOf
  split
  · next h =>
      rw [hend h]
      simp [hshell]
  · split
    · next h => simp [List.isEmpty_iff.mp h]
    · simp only [List.mem_append, hshell, false_or, or_false]

theorem lineFeed_not_mem_syntaxMessage (cause : SyntaxCause) :
    Bytes.lineFeed ∉ utf8 cause.message := by
  cases cause <;> decide

end Diagnostic

/-- Besides the reason of a sink, a fault quotes nothing with a line feed. -/
theorem RuntimeCause.ArisesFrom.lineFeed_mem {T : Token → Prop} {cause : RuntimeCause}
    (h : cause.ArisesFrom T)
    (hnames : ∀ t, T t → t.kind = .identifier → Bytes.lineFeed ∉ t.lexeme) :
    Bytes.lineFeed ∈ cause.message ↔
      ∃ reason, cause = .outputFailed reason ∧ Bytes.lineFeed ∈ reason := by
  cases h with
  | nestingTooDeep | operandsNotAddable =>
      exact iff_of_false (by decide) (by simp)
  | @undefinedVariable t ht hkind =>
      have hshell : Bytes.lineFeed ∉ utf8 "Undefined variable '" ∧ Bytes.lineFeed ∉ utf8 "'." := by
        decide
      refine iff_of_false ?_ (by simp)
      simp only [RuntimeCause.message, List.mem_append, not_or]
      exact ⟨⟨hshell.1, hnames t ht hkind⟩, hshell.2⟩
  | operandNotNumber op | operandsNotNumbers op =>
      have hshell : Bytes.lineFeed ∉ utf8 " must be followed by a number." ∧
          Bytes.lineFeed ∉ utf8 " must have number operands." := by decide
      refine iff_of_false ?_ (by simp)
      simp only [RuntimeCause.message, List.mem_append, not_or]
      first
        | exact ⟨op.lineFeed_not_mem_name, hshell.1⟩
        | exact ⟨op.lineFeed_not_mem_name, hshell.2⟩
  | outputFailed reason =>
      have hshell : Bytes.lineFeed ∉ utf8 "Cannot write output: " := by decide
      simp [RuntimeCause.message, hshell]

/-! ## Scripts -/

namespace Interpreter

open Bytes (lineFeed)

/-- A sink that refuses nothing takes every diagnostic on a line. -/
theorem writeDiagnostics_contents (ds : List Diagnostic) {errs : Sink}
    (hall : ∀ offered, errs.refusal offered = none) :
    (writeDiagnostics ds errs).1.contents =
      errs.contents ++ Bytes.lined (ds.map Diagnostic.text) := by
  induction ds generalizing errs with
  | nil => simp [writeDiagnostics, Bytes.lined]
  | cons d ds ih =>
      have hwrite : errs.write (d.text ++ [lineFeed]) = (.ok (), { errs with
          offered := (d.text ++ [lineFeed]) :: errs.offered
          taken := (d.text ++ [lineFeed]) :: errs.taken }) := by
        simp only [Sink.write, hall]
      simp only [writeDiagnostics, hwrite]
      rw [ih]
      · simp [Sink.contents]
      · exact hall

theorem scan_endMark_mem (source : Bytes) :
    Parse.endMark (scan source).tokens ∈ (scan source).tokens := by
  obtain ⟨ts, line, hsource, -⟩ := scan_lexemes source
  unfold Parse.endMark
  cases hfound : (scan source).tokens.find? Token.isEnd with
  | none =>
      have hlast := List.find?_eq_none.mp hfound (Token.endOfText line) (by simp [hsource])
      exact absurd rfl hlast
  | some t => exact List.mem_of_find?_eq_some hfound

/-- Every diagnostic of a run is about a text that does not scan, stands at a token of the script or
is a fault of its statements. -/
theorem run_diagnostics_cases (i : Interpreter) (source : Bytes) :
    ∀ d ∈ (i.run source).diagnostics,
      (∃ (line : Int) (cause : LexicalCause), d = .lexical line cause ∧
        lineFeed ∉ cause.message) ∨
      d.AtToken (· ∈ (scan source).tokens) ∨ d.FaultOf (· ∈ (scan source).tokens) := by
  have hparsed := parse_keeps (T := (· ∈ (scan source).tokens)) i.options.limit (fun _ => id)
    (scan_endMark_mem source)
  intro d hd
  change d ∈ (scan source).faults ++ (parse (scan source).tokens i.options.limit).reports ++
    (executeEach i.options (parse (scan source).tokens i.options.limit).stmts
      ⟨i.machine, []⟩).faults.reverse at hd
  simp only [List.mem_append, List.mem_reverse] at hd
  rcases hd with (hd | hd) | hd
  · exact .inl ((Scan.run_accounted [] source).faults_oneLine d hd)
  · exact .inr (.inl (hparsed.2 d hd))
  · exact .inr (.inr (executeEach_faultOf i.options hparsed.1 (List.forall_mem_nil _) d hd))

/-- Among the diagnostics of a run, those at strings over several lines and those with a reason of
several lines are no single lines. -/
theorem lineFeed_mem_diagnostic {i : Interpreter} {source : Bytes} {d : Diagnostic}
    (hd : d ∈ (i.run source).diagnostics) :
    lineFeed ∈ d.text ↔
      (∃ t ∈ (scan source).tokens, t.kind = .string ∧ lineFeed ∈ t.lexeme ∧
        ∃ cause, d = .syntactic t cause) ∨
      ∃ line reason, lineFeed ∈ reason ∧ d = .runtime line (.outputFailed reason) := by
  obtain ⟨ts, last, hsource, hts⟩ := scan_lexemes source
  have hone : ∀ t ∈ (scan source).tokens, t.kind ≠ .string → lineFeed ∉ t.lexeme := by
    intro t ht hkind
    rcases List.mem_append.mp (hsource ▸ ht) with ht | ht
    · exact (hts t ht).oneLine hkind
    · rw [List.mem_singleton.mp ht]
      exact List.not_mem_nil
  have hplace : ∀ t ∈ (scan source).tokens,
      (lineFeed ∈ Diagnostic.placeOf t ↔ lineFeed ∈ t.lexeme) := by
    intro t ht
    refine Diagnostic.lineFeed_mem_placeOf t fun hend => ?_
    rcases List.mem_append.mp (hsource ▸ ht) with ht | ht
    · exact absurd (beq_iff_eq.mp hend) (hts t ht).kind_ne_eof
    · rw [List.mem_singleton.mp ht]
      rfl
  rw [Diagnostic.lineFeed_mem_text]
  constructor
  · intro hfeed
    rcases run_diagnostics_cases i source d hd with
      ⟨line, cause, rfl, hmessage⟩ | ⟨ht, cause⟩ | ⟨line, hcause⟩
    · rcases hfeed with hfeed | hfeed
      · exact absurd hfeed List.not_mem_nil
      · exact absurd hfeed hmessage
    · rcases hfeed with hfeed | hfeed
      · have hlexeme := (hplace _ ht).mp hfeed
        have hstring := Classical.not_not.mp (mt (hone _ ht) (not_not_intro hlexeme))
        exact .inl ⟨_, ht, hstring, hlexeme, cause, rfl⟩
      · exact absurd hfeed (Diagnostic.lineFeed_not_mem_syntaxMessage cause)
    · rcases hfeed with hfeed | hfeed
      · exact absurd hfeed List.not_mem_nil
      · have hnames : ∀ t ∈ (scan source).tokens, t.kind = .identifier → lineFeed ∉ t.lexeme :=
          fun t ht hkind => hone t ht (by rw [hkind]; decide)
        obtain ⟨reason, rfl, hreason⟩ := (hcause.lineFeed_mem hnames).mp hfeed
        exact .inr ⟨line, reason, hreason, rfl⟩
  · rintro (⟨t, ht, -, hlexeme, cause, rfl⟩ | ⟨line, reason, hreason, rfl⟩)
    · exact .inl ((hplace t ht).mpr hlexeme)
    · exact .inr (List.mem_append_right _ hreason)

/-- Of a script whose diagnostics are all taken, they are the lines of what was written exactly when
no syntax error stands at a string over several lines, and no line of output was refused with a
reason of several lines. -/
theorem diagnostics_lined_iff {i : Interpreter} {source : Bytes} {outcome : Outcome}
    (hall : ∀ offered, i.errs.refusal offered = none) (hrun : i.Runs source outcome) :
    ∃ written, outcome.interpreter.errs.contents = i.errs.contents ++ written ∧
      ((written.count lineFeed = outcome.diagnostics.length ∧
          Bytes.splitOn lineFeed written = outcome.diagnostics.map Diagnostic.text ++ [[]]) ↔
        (∀ t ∈ (scan source).tokens, t.kind = .string → lineFeed ∈ t.lexeme →
          ∀ cause, Diagnostic.syntactic t cause ∉ outcome.diagnostics) ∧
        ∀ line reason, lineFeed ∈ reason →
          Diagnostic.runtime line (.outputFailed reason) ∉ outcome.diagnostics) := by
  obtain ⟨hinterpreter, hdiagnostics⟩ := hrun.eq_run
  have hwritten : (i.run source).interpreter.errs.contents =
      i.errs.contents ++ Bytes.lined ((i.run source).diagnostics.map Diagnostic.text) :=
    writeDiagnostics_contents (i.run source).diagnostics hall
  refine ⟨_, by rw [hinterpreter, hwritten], ?_⟩
  rw [hdiagnostics]
  have hlines := Bytes.splitOn_lined_iff ((i.run source).diagnostics.map Diagnostic.text)
  rw [List.length_map] at hlines
  rw [hlines, List.forall_mem_map]
  constructor
  · intro hone
    constructor
    · intro t ht hstring hlexeme cause hd
      exact hone _ hd ((lineFeed_mem_diagnostic hd).mpr
        (.inl ⟨t, ht, hstring, hlexeme, cause, rfl⟩))
    · intro line reason hreason hd
      exact hone _ hd ((lineFeed_mem_diagnostic hd).mpr (.inr ⟨line, reason, hreason, rfl⟩))
  · rintro ⟨hstrings, hreasons⟩ d hd hfeed
    rcases (lineFeed_mem_diagnostic hd).mp hfeed with
      ⟨t, ht, hstring, hlexeme, cause, rfl⟩ | ⟨line, reason, hreason, rfl⟩
    · exact hstrings t ht hstring hlexeme cause hd
    · exact hreasons line reason hreason hd

/-- A string over two lines that is printed does no harm: a syntax error and a fault behind it take
two lines. -/
theorem printed_lines_told :
    let source := utf8 "print \"a\nb\";\nlet;\nx;"
    let outcome := (Interpreter.ofOptions {}).run source
    (∃ t ∈ (scan source).tokens, t.kind = .string ∧ lineFeed ∈ t.lexeme) ∧
      outcome.diagnostics.length = 2 ∧ outcome.interpreter.errs.contents.count lineFeed = 2 ∧
      Bytes.splitOn lineFeed outcome.interpreter.errs.contents =
        outcome.diagnostics.map Diagnostic.text ++ [[]] := by
  have hdiagnostics :
      ((Interpreter.ofOptions {}).run (utf8 "print \"a\nb\";\nlet;\nx;")).diagnostics =
      [⟨.syntactic, 3, utf8 " at ';'", .syntactic .expectVariableName⟩,
        .runtime 4 (.undefinedVariable (utf8 "x"))] := by
    cbv
  intro source outcome
  have hstrings : ∀ t ∈ (scan source).tokens, t.kind = .string → t.line = 2 := by decide +kernel
  have hrun : (Interpreter.ofOptions {}).Runs source outcome := .uncached
  obtain ⟨written, hcontents, hiff⟩ := diagnostics_lined_iff (fun _ => rfl) hrun
  have hwritten : outcome.interpreter.errs.contents = written := hcontents
  have hlines := hiff.mpr <| by
    rw [hdiagnostics]
    refine ⟨fun t ht hstring _ cause hd => ?_, by simp [Diagnostic.runtime]⟩
    have hline := hstrings t ht hstring
    simp [Diagnostic.syntactic, Diagnostic.runtime, hline] at hd
  rw [← hwritten] at hlines
  have hlength : outcome.diagnostics.length = 2 := by rw [hdiagnostics]; rfl
  exact ⟨by decide +kernel, hlength, hlines.1.trans hlength, hlines.2⟩

/-- A string over two lines stands in place of a name, and its diagnostic takes two lines. -/
theorem quoted_lines_told :
    let outcome := (Interpreter.ofOptions {}).run (utf8 "let \"a\nb\";")
    outcome.diagnostics.length = 1 ∧ outcome.interpreter.errs.contents.count lineFeed = 2 := by
  decide +kernel

end Interpreter

end Scribe
