import Scribe.Interpreter
import Scribe.Proofs.Decimal.RoundTrip
import Scribe.Proofs.Scope
import Scribe.Proofs.Token.Spelling
import Scribe.Proofs.Value.Written
import Scribe.Value.Literal

/-!
# Source literals read back

The source literal of a value spells tokens that write the value. So a script that declares a
variable with the literal binds the variable to the value, if there are levels enough.
-/

namespace Scribe

namespace Literal

open Scan

/-- What follows a literal: a comma, a closing bracket or a semicolon. -/
def Closing (rest : Bytes) : Prop := ∃ b more, rest = b :: more ∧ (b = 0x2C ∨ b = 0x5D ∨ b = 0x3B)

theorem Closing.stops {rest : Bytes} (h : Closing rest) :
    Stops continuesWord rest ∧ Stops Char.isDigit rest ∧ Stops (· == '.') rest := by
  obtain ⟨b, more, rfl, rfl | rfl | rfl⟩ := h <;>
    exact ⟨(stops_cons (by decide) _).mpr (by decide), (stops_cons (by decide) _).mpr (by decide),
      (stops_cons (by decide) _).mpr (by decide)⟩

/-- In front of `rest`, the text is scanned to tokens that write the value. -/
def Writes (v : Value) (text rest : Bytes) : Prop :=
  ∀ line, ∃ ts e line', Written v ts e ∧ Spells line text rest ts line'

/-! ## Constants -/

theorem writes_word {text rest : Bytes} {v : Value} (hclosing : Closing rest)
    (htext : isWord text = true)
    (hword : ∀ t : Token, t.kind = TokenKind.ofWord text → Grammar.Denotes t v) :
    Writes v text rest := by
  intro line
  obtain ⟨line', hspells⟩ := spells_word line htext hclosing.stops.1
  exact ⟨_, _, line', .constant (hword _ rfl), hspells⟩

theorem writes_null {rest : Bytes} (h : Closing rest) : Writes .null (utf8 "nil") rest :=
  writes_word h (by decide) fun _ ht => .null ht

theorem writes_boolean {rest : Bytes} (h : Closing rest) (b : Bool) :
    Writes (.boolean b) (Value.ofBool b) rest := by
  cases b with
  | false =>
      exact writes_word h (by decide) fun _ ht => .no ht
  | true =>
      exact writes_word h (by decide) fun _ ht => .yes ht

theorem writes_plain {text rest : Bytes} (hclosing : Closing rest) (h : Decimal.Plain text) :
    Writes (.number (Decimal.readPlain text)) text rest := by
  intro line
  obtain ⟨-, hdigit, hpoint⟩ := hclosing.stops
  obtain ⟨line', hspells⟩ := spells_plain line h hdigit hpoint
  exact ⟨_, _, line', .constant (.number rfl), hspells⟩

theorem writes_negative {text rest : Bytes} (hclosing : Closing rest) (h : Decimal.Plain text) :
    Writes (.number (-Decimal.readPlain text)) (0x2D :: text) rest := by
  intro line
  obtain ⟨-, hdigit, hpoint⟩ := hclosing.stops
  obtain ⟨line', hspells⟩ := spells_plain line h hdigit hpoint
  have hminus : Spells line [0x2D] (text ++ rest) [⟨.minus, [0x2D], .null, line⟩] line :=
    spells_single line _ (by decide) rfl fun _ => rfl
  exact ⟨_, _, line', .negative rfl (.number rfl), hminus.append hspells⟩

theorem writes_number {rest : Bytes} (h : Closing rest) {f : Float} (hnan : f.isNaN = false)
    (hinf : f.isInf = false) : Writes (.number f) (Layout.plain.number f) rest := by
  obtain ⟨text, htext, hplain, hvalue⟩ := Decimal.number_plain hnan hinf
  rw [htext]
  by_cases hsign : Layout.signBit f = true
  · rw [if_pos hsign] at hvalue ⊢
    have hwrites := writes_negative h hplain
    rwa [hvalue] at hwrites
  · rw [if_neg hsign] at hvalue ⊢
    have hwrites := writes_plain h hplain
    rwa [hvalue] at hwrites

theorem writes_string {rest text : Bytes} (h : Bytes.quote ∉ text) :
    Writes (.string text) ([Bytes.quote] ++ text ++ [Bytes.quote]) rest := by
  intro line
  obtain ⟨line', hspells⟩ := spells_string line h rest
  exact ⟨_, _, line', .constant (.string rfl), hspells⟩

/-! ## Arrays -/

def WritesElements (vs : List Value) (text rest : Bytes) : Prop :=
  ∀ line, ∃ ts es line', WrittenElements vs ts es ∧ Spells line text rest ts line'

theorem writes_emptyArray {rest : Bytes} : Writes (.array []) [0x5B, 0x5D] rest := by
  intro line
  have hopen : Spells line [0x5B] ([0x5D] ++ rest) [⟨.leftBracket, [0x5B], .null, line⟩] line :=
    spells_single line _ (by decide) rfl fun _ => rfl
  have hclose : Spells line [0x5D] rest [⟨.rightBracket, [0x5D], .null, line⟩] line :=
    spells_single line _ (by decide) rfl fun _ => rfl
  exact ⟨_, _, line, .emptyArray rfl rfl, hopen.append hclose⟩

theorem writes_array {vs : List Value} {text rest : Bytes}
    (h : WritesElements vs text (0x5D :: rest)) :
    Writes (.array vs) ([0x5B] ++ text ++ [0x5D]) rest := by
  intro line
  obtain ⟨ts, es, line', hes, hspells⟩ := h line
  have hopen : Spells line [0x5B] (text ++ ([0x5D] ++ rest))
      [⟨.leftBracket, [0x5B], .null, line⟩] line :=
    spells_single line _ (by decide) rfl fun _ => rfl
  have hclose : Spells line' [0x5D] rest [⟨.rightBracket, [0x5D], .null, line'⟩] line' :=
    spells_single line' _ (by decide) rfl fun _ => rfl
  exact ⟨_, _, line', .array rfl hes rfl, (hopen.append hspells).append hclose⟩

theorem writes_last {v : Value} {text rest : Bytes} (h : Writes v text rest) :
    WritesElements [v] text rest := by
  intro line
  obtain ⟨ts, e, line', hv, hspells⟩ := h line
  exact ⟨ts, [e], line', .last hv, hspells⟩

theorem writes_more {v : Value} {vs : List Value} {text texts rest : Bytes}
    (h : Writes v text (0x2C :: 0x20 :: (texts ++ rest))) (hes : WritesElements vs texts rest) :
    WritesElements (v :: vs) (text ++ utf8 ", " ++ texts) rest := by
  intro line
  obtain ⟨ts, e, line', hv, hspells⟩ := h line
  obtain ⟨us, es, line'', hvs, hspells'⟩ := hes line'
  have hcomma : Spells line' [0x2C] ([0x20] ++ (texts ++ rest))
      [⟨.comma, [0x2C], .null, line'⟩] line' :=
    spells_single line' _ (by decide) rfl fun _ => rfl
  have hbetween := hcomma.append (spells_space line' (texts ++ rest))
  have hboth := (hspells.append hbetween).append hspells'
  have hwritten : WrittenElements (v :: vs) (ts ++ ⟨.comma, [0x2C], .null, line'⟩ :: us)
      (e :: es) := .more hv rfl hvs
  rw [List.append_nil, List.append_assoc ts] at hboth
  exact ⟨_, _, line'', hwritten, hboth⟩

mutual

/-- The source literal of a value spells tokens that write it. -/
theorem literal_writes : (v : Value) → {text rest : Bytes} → v.literal? = some text →
    Closing rest → Writes v text rest
  | .null, _, _, htext, hrest => by
      rw [Value.literal?] at htext
      cases htext
      exact writes_null hrest
  | .boolean b, _, _, htext, hrest => by
      rw [Value.literal?] at htext
      cases htext
      exact writes_boolean hrest b
  | .number f, _, _, htext, hrest => by
      rw [Value.literal?] at htext
      split at htext
      · cases htext
      · next hfinite =>
          cases htext
          rw [Bool.or_eq_true, not_or, Bool.not_eq_true, Bool.not_eq_true] at hfinite
          exact writes_number hrest hfinite.1 hfinite.2
  | .string text, _, _, htext, _ => by
      rw [Value.literal?] at htext
      split at htext
      · cases htext
      · next hquote =>
          cases htext
          exact writes_string (by simpa using hquote)
  | .array vs, _, rest, htext, _ => by
      rw [Value.literal?, Option.map_eq_some_iff] at htext
      obtain ⟨texts, htexts, rfl⟩ := htext
      cases vs with
      | nil =>
          cases htexts
          exact writes_emptyArray
      | cons v vs =>
          exact writes_array (literals_write (v :: vs) (by simp) htexts
            ⟨0x5D, rest, rfl, .inr (.inl rfl)⟩)

theorem literals_write : (vs : List Value) → vs ≠ [] → {texts : List Bytes} → {rest : Bytes} →
    Value.literals? vs = some texts → Closing rest →
    WritesElements vs (Bytes.join (utf8 ", ") texts) rest
  | [], hne, _, _, _, _ => absurd rfl hne
  | v :: vs, _, _, rest, htexts, hrest => by
      rw [Value.literals?] at htexts
      split at htexts
      · next text texts htext hmore =>
          cases htexts
          cases vs with
          | nil =>
              cases hmore
              rw [Bytes.join, List.intercalate_singleton]
              exact writes_last (literal_writes v htext hrest)
          | cons w vs =>
              have hwrites := literals_write (w :: vs) (by simp) hmore hrest
              have hclosing : Closing (0x2C :: 0x20 :: (Bytes.join (utf8 ", ") texts ++ rest)) :=
                ⟨0x2C, _, rfl, .inl rfl⟩
              have hne : texts ≠ [] := by
                intro hnil
                rw [hnil, Value.literals?] at hmore
                split at hmore <;> cases hmore
              rw [Bytes.join, List.intercalate_cons_of_ne_nil hne]
              exact writes_more (literal_writes v htext hclosing) hwrites
      · cases htexts

end

/-! ## Declared variables -/

/-- The tokens that a text spells are those that its program is parsed from. -/
theorem program_of_spells {text : Bytes} {ts : List Token} {line limit : Nat} {ss : List Stmt}
    (hspells : Spells 1 text [] ts line)
    (hparse : parse (ts ++ [Token.endOfText line]) limit = ⟨ss, []⟩) :
    (Program.ofSource text limit).stmts = ss ∧ (Program.ofSource text limit).diagnostics = [] := by
  constructor
  · simp only [Program.ofSource, hspells.scan_eq, hparse]
  · simp only [Program.diagnostics, Program.ofSource, hspells.scan_eq, hparse]
    rfl

section DeclaresAll

variable {entries : List (Bytes × Value)} {ts : List Token} {ss : List Stmt}
  (h : DeclaresAll entries ts ss)
include h

/-- A text that spells declarations is the program of their statements. -/
theorem DeclaresAll.made {text : Bytes} {line : Nat} (hspells : Spells 1 text [] ts line)
    {limit : Nat} (hlimit : ∀ e ∈ entries, e.2.nesting + 2 ≤ limit) :
    (Program.ofSource text limit).stmts = ss ∧ (Program.ofSource text limit).diagnostics = [] :=
  program_of_spells hspells (Parse.parse_of_program h.open_ended rfl (h.parsed hlimit rfl rfl))

theorem DeclaresAll.executed {o : Options} (hlive : o.cancelled = false)
    (hon : o.arrayElements = true) {m : Machine}
    (hlimit : ∀ e ∈ entries, m.depth + (e.2.nesting + 3) ≤ o.limit) (hscope : m.scopes.inner = [])
    (faults : List Diagnostic) :
    ∃ events, Interpreter.executeEach o ss ⟨m, faults⟩ =
      ⟨{ m with
          scopes := .ofTop (entries.foldl (fun b e => b.define e.1 e.2) m.scopes.top), events },
        faults⟩ := by
  induction h generalizing m with
  | nil =>
      have hsame : Scopes.ofTop m.scopes.top = m.scopes := by rw [Scopes.ofTop, ← hscope]
      exact ⟨m.events, by rw [Interpreter.executeEach, List.foldl_nil, hsame]⟩
  | @cons name v entries ts us s ss hs _ ih =>
      obtain ⟨event, hrun⟩ := hs.executed hlive hon (hlimit (name, v) List.mem_cons_self)
      have hdefine : m.scopes.define name v = .ofTop (m.scopes.top.define name v) := by
        simp only [Scopes.define, hscope, Scopes.ofTop]
      rw [hdefine] at hrun
      obtain ⟨events, hothers⟩ := ih
        (m := { m with
          scopes := .ofTop (m.scopes.top.define name v), events := event :: m.events })
        (fun e he => hlimit e (List.mem_cons_of_mem _ he)) rfl
      refine ⟨events, ?_⟩
      rw [Interpreter.executeEach, hrun]
      exact hothers

theorem DeclaresAll.run {i : Interpreter} {p : Program} (hstmts : p.stmts = ss)
    (hquiet : p.diagnostics = []) (hlive : i.options.cancelled = false)
    (hon : i.options.arrayElements = true)
    (hlimit : ∀ e ∈ entries, i.depth + (e.2.nesting + 3) ≤ i.options.limit)
    (hscope : i.scopes.inner = []) :
    (i.runProgram p).diagnostics = [] ∧ (i.runProgram p).interpreter.bindings =
      entries.foldl (fun b e => b.define e.1 e.2) i.bindings := by
  obtain ⟨events, hrun⟩ := h.executed hlive hon (m := i.machine) hlimit hscope []
  rw [← hstmts] at hrun
  rw [Interpreter.runProgram, hrun, hquiet]
  exact ⟨rfl, rfl⟩

end DeclaresAll

/-- A text that is the name of a variable in front of a space. -/
def Names (name : Bytes) : Prop :=
  ∀ line rest, ∃ line' : Nat,
    Spells line name (0x20 :: rest) [⟨.identifier, name, .null, line'⟩] line'

theorem names_x : Names (utf8 "x") := by
  intro line rest
  exact spells_word line (by decide) ((stops_cons (by decide) _).mpr (by decide))

theorem spells_let (line : Nat) (rest : Bytes) : ∃ line' : Nat,
    Spells line (utf8 "let") (0x20 :: rest) [⟨.kwLet, utf8 "let", .null, line'⟩] line' :=
  spells_word line (by decide) ((stops_cons (by decide) _).mpr (by decide))

def assigned (lit : Bytes) : Bytes := [0x20] ++ ([0x3D] ++ ([0x20] ++ (lit ++ [0x3B])))

def declaration (name lit : Bytes) : Bytes := utf8 "let" ++ ([0x20] ++ (name ++ assigned lit))

section Declaration

variable {v : Value} {lit : Bytes} (hlit : v.literal? = some lit) (line : Nat) (rest : Bytes)
include hlit

theorem assigned_spells : ∃ (equals semicolon : Token) (ts : List Token) (e : Expr) (line' : Nat),
    equals.kind = .equal ∧ Written v ts e ∧ semicolon.kind = .semicolon ∧
      Spells line (assigned lit) rest (equals :: ts ++ [semicolon]) line' := by
  have hclosing : Closing ([0x3B] ++ rest) := ⟨0x3B, rest, rfl, .inr (.inr rfl)⟩
  obtain ⟨ts, e, line', hwritten, hliteral⟩ := literal_writes v hlit hclosing line
  have hsemicolon : Spells line' [0x3B] rest [⟨.semicolon, [0x3B], .null, line'⟩] line' :=
    spells_single line' _ (by decide) rfl fun _ => rfl
  have hbehind := (spells_space line _).append (hliteral.append hsemicolon)
  have hequals := (spells_equal line (lit ++ [0x3B] ++ rest)).append hbehind
  exact ⟨⟨.equal, [0x3D], .null, line⟩, ⟨.semicolon, [0x3B], .null, line'⟩, ts, e, line', rfl,
    hwritten, rfl, (spells_space line _).append hequals⟩

theorem declaration_spells {name : Bytes} (hname : Names name) :
    ∃ ts s line', Declares name v ts s ∧ Spells line (declaration name lit) rest ts line' := by
  obtain ⟨line₁, hlet⟩ := spells_let line (name ++ assigned lit ++ rest)
  obtain ⟨line₂, htarget⟩ := hname line₁ ([0x3D] ++ ([0x20] ++ (lit ++ [0x3B])) ++ rest)
  obtain ⟨equals, semicolon, ts, e, line₃, hequals, hwritten, hsemicolon, hassigned⟩ :=
    assigned_spells hlit line₂ rest
  have hbehind := (spells_space line₁ _).append (htarget.append hassigned)
  have hall := hlet.append hbehind
  have hdeclares : Declares name v (⟨.kwLet, utf8 "let", .null, line₁⟩ ::
      ⟨.identifier, name, .null, line₂⟩ :: equals :: ts ++ [semicolon])
      (.declare ⟨.identifier, name, .null, line₂⟩ e) :=
    .mk rfl rfl rfl hequals hwritten hsemicolon
  exact ⟨_, _, line₃, hdeclares, hall⟩

theorem declaration_made {name : Bytes} (hname : Names name) {limit : Nat}
    (hlimit : v.nesting + 2 ≤ limit) :
    ∃ ts s, Declares name v ts s ∧
      (Program.ofSource (declaration name lit) limit).stmts = [s] ∧
      (Program.ofSource (declaration name lit) limit).diagnostics = [] := by
  obtain ⟨ts, s, line, hdeclares, hspells⟩ := declaration_spells hlit 1 [] hname
  exact ⟨ts, s, hdeclares, hdeclares.single.made hspells (by simpa using hlimit)⟩

end Declaration

/-- A declaration that runs binds its variable in the outermost scope. -/
theorem run_declares {name : Bytes} {v : Value} {i : Interpreter} {p : Program} {ts : List Token}
    {s : Stmt} (h : Declares name v ts s) (hstmts : p.stmts = [s]) (hquiet : p.diagnostics = [])
    (hlive : i.options.cancelled = false) (hon : i.options.arrayElements = true)
    (hlimit : i.depth + (v.nesting + 3) ≤ i.options.limit) (hscope : i.scopes.inner = []) :
    (i.runProgram p).diagnostics = [] ∧
      (i.runProgram p).interpreter.bindings = i.bindings.define name v :=
  h.single.run hstmts hquiet hlive hon (by simpa using hlimit) hscope

/-- A literal is that of one value only. -/
theorem literal?_injective {v w : Value} {lit : Bytes} (hv : v.literal? = some lit)
    (hw : w.literal? = some lit) : v = w := by
  let o : Options := { arrayElements := true, limit := max v.nesting w.nesting + 3 }
  have hbound : ∀ {u : Value}, u.literal? = some lit → u.nesting + 3 ≤ o.limit →
      (((Interpreter.ofOptions o).run (declaration (utf8 "x") lit)).interpreter.bindings.get?
        (utf8 "x")) = some u := by
    intro u hu hlimit
    obtain ⟨ts, s, hdeclares, hstmts, hquiet⟩ :=
      declaration_made hu names_x (Nat.le_of_succ_le hlimit)
    have hrun := run_declares (i := .ofOptions o) hdeclares hstmts hquiet rfl rfl
      (by simpa [Interpreter.ofOptions] using hlimit) rfl
    refine (congrArg (Bindings.get? · (utf8 "x")) hrun.2).trans ?_
    rw [Bindings.get?_define, if_pos rfl]
  have hsame := hbound hv (Nat.add_le_add_right (Nat.le_max_left _ _) 3)
  rw [hbound hw (Nat.add_le_add_right (Nat.le_max_right _ _) 3)] at hsame
  exact (Option.some.inj hsame).symm

/-- A variable that is declared with the literal of a value is bound to that value, whatever the
interpreter knew before, if the value nests at least three levels less than the limit. -/
theorem literal_declared {v : Value} {lit : Bytes} (hlit : v.literal? = some lit)
    (blockScope : Bool) {limit : Nat} (hlimit : v.nesting + 3 ≤ limit)
    (globals : List (Bytes × Value)) :
    let o : Options := { blockScope, arrayElements := true, limit }
    let done := (Interpreter.ofOptions o globals).run (utf8 "let x = " ++ lit ++ utf8 ";")
    done.diagnostics = [] ∧ done.interpreter.bindings.get? (utf8 "x") = some v := by
  intro o done
  have hsource : utf8 "let x = " ++ lit ++ utf8 ";" = declaration (utf8 "x") lit := by
    rw [declaration, assigned, ← List.append_assoc, ← List.append_assoc]
    rfl
  have hparse : v.nesting + 2 ≤ limit := by omega
  obtain ⟨ts, s, hdeclares, hstmts, hquiet⟩ := declaration_made hlit names_x hparse
  have hroom : 0 + (v.nesting + 3) ≤ limit := by omega
  have hrun := run_declares (i := Interpreter.ofOptions o globals) hdeclares hstmts hquiet rfl rfl
    hroom rfl
  rw [← hsource] at hrun
  have hbound : done.interpreter.bindings =
      (Interpreter.ofOptions o globals).bindings.define (utf8 "x") v := hrun.2
  refine ⟨hrun.1, ?_⟩
  rw [hbound, Bindings.get?_define, if_pos rfl]

/-- Negative zero, a comment mark in a string and arrays in an array, with no level to spare. -/
theorem nested_literal_declared :
    let v : Value := .array [.number (-0.0), .string (utf8 "//\n"), .array [.null, .array []]]
    let lit : Bytes := utf8 "[-0, \"//\n\", [nil, []]]"
    let o : Options := { arrayElements := true, limit := 6 }
    let done := (Interpreter.ofOptions o).run (utf8 "let x = " ++ lit ++ utf8 ";")
    v.literal? = some lit ∧ v.nesting + 3 = 6 ∧ done.diagnostics = [] ∧
      done.interpreter.bindings.get? (utf8 "x") = some v := by
  intro v lit o done
  have hlit : v.literal? = some lit := by decide
  have hlimit : v.nesting + 3 ≤ 6 := by decide
  exact ⟨hlit, rfl, literal_declared hlit false hlimit []⟩

end Literal

end Scribe
