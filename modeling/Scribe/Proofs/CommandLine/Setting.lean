import Scribe.CommandLine.Setting
import Scribe.Prompt.Session
import Scribe.Proofs.Parse.Exact
import Scribe.Proofs.Prompt.Entering
import Scribe.Proofs.Prompt.Script
import Scribe.Proofs.Scope
import Scribe.Proofs.Text.Space
import Scribe.Proofs.Token.Rescan
import Scribe.Proofs.Token.Trailing

/-!
# Names that settings bind

A setting accepts a name that scans as a single identifier. A scan passes over comments, so the name
need not be the identifier: whatever is written in a comment next to it belongs to the name, too,
and no script can spell such a name. Without a slash there is no comment, and a script that consists
of the name reads the value that was bound to it.
-/

namespace Scribe

open Scan

/-! ## Identifiers -/

theorem Lexeme.of_identifier {kind : TokenKind} {text : Bytes} {v : Value} (h : Lexeme kind text v)
    (hkind : kind = .identifier) : v = .null ∧ Edit.isIdentifier text = true := by
  have hmarks : ∀ entry ∈ TokenKind.marks, entry.1 ≠ .identifier := by decide
  cases h with
  | mark hmark => exact absurd hkind (hmarks _ hmark)
  | number _ _ => cases hkind
  | string _ => cases hkind
  | word hrunes hstart hmore =>
      exact ⟨rfl, Edit.isIdentifier_iff.mpr ⟨_, _, hrunes, hstart, hmore, hkind⟩⟩

theorem scan_getLast? (text : Bytes) : (scan text).tokens.getLast? =
    some (Token.endOfText (1 + text.count Bytes.lineFeed : Nat)) := by
  rw [scan_eq, Result.closed, List.getLast?_concat]

namespace Scan

/-- Without a slash there is no comment. -/
theorem comment_not_slice {source text : Bytes} (hslash : 0x2F ∉ source) {start stop : Nat} :
    source.slice start stop ≠ utf8 "//" ++ text := by
  intro htext
  have hmem : 0x2F ∈ source.slice start stop := by
    rw [htext]
    exact List.mem_append_left _ (by decide)
  exact hslash (List.mem_of_mem_take (List.mem_of_mem_drop hmem))

namespace Accounted

variable {source : Bytes} (hslash : 0x2F ∉ source)
include hslash

/-- Without comments, what has no tokens and no faults is white space. -/
theorem blanks {place : Nat} {ts : List Token} (h : Accounted source place ts [])
    (hts : ∀ t ∈ ts, t.kind = .eof) : ∀ b ∈ source.drop place, b ∈ Scan.blanks := by
  generalize hnone : ([] : List Diagnostic) = ds at h
  induction h with
  | finish => simp
  | token _ _ hkind _ _ _ => exact absurd (hts _ List.mem_cons_self) hkind
  | @blank start b _ _ hb hblank _ ih =>
      obtain ⟨hplace, rfl⟩ := List.getElem?_eq_some_iff.mp hb
      rw [List.drop_eq_getElem_cons hplace]
      exact List.forall_mem_cons.mpr ⟨hblank, ih hts hnone⟩
  | comment _ htext _ _ _ _ => exact absurd htext (comment_not_slice hslash)
  | rejected _ _ _ _ => cases hnone
  | unterminated _ _ => cases hnone

end Accounted

end Scan

namespace Setting

theorem isIdentifier_iff {name : Bytes} : isIdentifier name = true ↔
    (scan name).faults = [] ∧ ∃ t finish, (scan name).tokens = [t, finish] ∧
      t.kind = .identifier := by
  unfold isIdentifier
  constructor
  · intro h
    dsimp only at h
    split at h
    · next t finish hfaults htokens =>
        exact ⟨hfaults, t, finish, htokens, by simpa using h⟩
    · cases h
  · rintro ⟨hfaults, t, finish, htokens, hkind⟩
    simp only [hfaults, htokens, hkind, decide_true]

theorem scan_identifier {name : Bytes} (htrim : Bytes.trim name = name)
    (h : isIdentifier name = true) (hslash : 0x2F ∉ name) :
    Edit.isIdentifier name = true ∧
      scan name = ⟨[⟨.identifier, name, .null, 1⟩, Token.endOfText 1], []⟩ := by
  obtain ⟨hfaults, t, finish, htokens, hkind⟩ := isIdentifier_iff.mp h
  have hends : ∀ b ∈ blanks, name.head? ≠ some b ∧ name.getLast? ≠ some b :=
    fun b hb => Bytes.ends_of_trim htrim (blank_ascii hb) (blank_isSpace hb)
  have hfinish : finish = Token.endOfText (1 + name.count Bytes.lineFeed : Nat) := by
    have hlast := scan_getLast? name
    rw [htokens] at hlast
    exact Option.some.inj hlast
  have hall := run_accounted [] name
  change Accounted name 0 (scan name).tokens (scan name).faults at hall
  rw [htokens, hfaults] at hall
  generalize hplace : 0 = place at hall
  cases hall with
  | blank hb hblank _ =>
      rw [← hplace, ← List.head?_eq_getElem?] at hb
      exact absurd hb (hends _ hblank).1
  | comment _ htext _ _ _ => exact absurd htext (comment_not_slice hslash)
  | @token _ stop kind v _ _ hsome hwithin _ hlexeme hrest =>
      have hblanks := hrest.blanks hslash (by simp [hfinish, Token.endOfText])
      obtain rfl : stop = name.length := by
        by_contra hne
        have hbehind : name.drop stop ≠ [] := by
          rw [← List.length_pos_iff, List.length_drop]
          omega
        have hlast := List.getLast?_eq_some_getLast hbehind
        rw [List.getLast?_drop, if_neg (by omega)] at hlast
        exact (hends _ (hblanks _ (List.getLast_mem hbehind))).2 hlast
      have hslice : name.slice place name.length = name := by
        rw [← hplace, Bytes.slice, List.take_length, List.drop_zero]
      obtain ⟨rfl, hname⟩ := hlexeme.of_identifier hkind
      obtain rfl : kind = .identifier := hkind
      rw [hslice] at hname htokens
      have hone : name.count Bytes.lineFeed = 0 :=
        List.count_eq_zero_of_not_mem (Edit.lineFeed_not_mem_name hname)
      have hline : lineAt name name.length = 1 := by
        rw [lineAt, List.take_length, hone]
      rw [hfinish, hline, hone] at htokens
      refine ⟨hname, ?_⟩
      rw [← hfaults]
      exact congrArg (Result.mk · (scan name).faults) htokens

theorem slash_not_mem_of_scan {name : Bytes}
    (h : scan name = ⟨[⟨.identifier, name, .null, 1⟩, Token.endOfText 1], []⟩) : 0x2F ∉ name := by
  obtain ⟨ts, line, hts, hlexemes⟩ := scan_lexemes name
  rw [h] at hts
  have hmem : (⟨.identifier, name, .null, 1⟩ : Token) ∈ ts := by
    have hfront := congrArg List.dropLast hts
    rw [List.dropLast_concat] at hfront
    exact hfront ▸ List.mem_cons_self
  have hname := ((hlexemes _ hmem).of_identifier rfl).2
  exact Edit.not_mem_name hname (by decide) (by decide)

/-! ## Bound names -/

theorem split?_eq_some {setting name source : Bytes} (h : split? setting = some (name, source)) :
    Bytes.trim name = name ∧ isIdentifier name = true := by
  unfold split? at h
  split at h
  · next raw _ _ =>
      dsimp only at h
      split at h
      · next hname =>
          cases h
          exact ⟨Bytes.trim_trim raw, hname⟩
      · cases h
  · cases h

/-- Whatever formulas are worth, each name is trimmed and scans as an identifier. -/
theorem valuesFrom_names {evaluate? : List (Bytes × Datum) → Bytes → Option Datum}
    {names : List (Bytes × Datum)} {settings : List Bytes} {values : List (Bytes × Value)}
    (h : valuesFrom evaluate? names settings = .ok values) :
    ∀ e ∈ values, Bytes.trim e.1 = e.1 ∧ isIdentifier e.1 = true := by
  induction settings generalizing names values with
  | nil =>
      cases h
      exact List.forall_mem_nil _
  | cons setting settings ih =>
      rw [valuesFrom] at h
      split at h
      · cases h
      · next name source hsplit =>
          split at h
          · cases h
          · split at h
            · cases h
            · split at h
              · cases h
              · next hothers =>
                  cases h
                  exact List.forall_mem_cons.mpr ⟨split?_eq_some hsplit, ih hothers⟩

end Setting

theorem Interpreter.evaluate_eq_ok {i : Interpreter} {e : Expr} {v : Value} :
    (i.evaluate e).1 = .ok v ↔ ∃ m, Scribe.evaluate i.options e i.machine = .ok v m := by
  unfold Interpreter.evaluate
  cases Scribe.evaluate i.options e i.machine <;> simp

namespace Session

/-! ## Names at the prompt -/

theorem bareExpression?_name {name : Bytes} (hname : Edit.isIdentifier name = true) : ∃ t : Token,
    t.lexeme = name ∧
      bareExpression? (Program.ofSource (name ++ utf8 ";") defaultLimit) = some (.reference t) := by
  obtain ⟨r, rs, hrunes, hstart, hmore, hkind⟩ := Edit.isIdentifier_iff.mp hname
  have hsemicolon : (0x3B : UInt8) < 0x80 := by decide
  obtain ⟨line, hword⟩ := spells_name 1 hrunes hstart hmore hsemicolon (by decide) []
  let t : Token := ⟨.identifier, name, .null, line⟩
  let semicolon : Token := ⟨.semicolon, [0x3B], .null, line⟩
  have hend : Spells line [0x3B] [] [semicolon] line :=
    spells_single line [] hsemicolon rfl fun _ => rfl
  rw [hkind] at hword
  have hexpr : Grammar.Expression .expression [t] (.reference t) :=
    .equality (.operand (.operand (.operand (.operand (.primary (.name rfl))))))
  have hitem : Grammar.Declaration [t, semicolon] (.expression (.reference t)) :=
    .statement (.expression hexpr rfl)
  have hall : Grammar.Declarations ([t, semicolon] ++ []) [.expression (.reference t)] :=
    .cons hitem .nil
  have hlimit : 2 ≤ defaultLimit := by decide
  obtain ⟨hstmts, hdiags⟩ := Literal.program_of_spells (hword.append hend)
    (Parse.parse_complete (by simp [semicolon, Token.isEnd]) rfl hall hlimit)
  exact ⟨t, rfl, bareExpression?_eq_some.mpr ⟨hdiags, hstmts, by simp⟩⟩

theorem completed_name {name : Bytes} (hname : Edit.isIdentifier name = true)
    (htrim : Bytes.trim name = name) : completed name = name ++ utf8 ";" := by
  have hends : ∀ b : UInt8, b < 0x80 → continuesWord (Rune.ascii b).char = false →
      Bytes.endsWith name [b] = false := by
    intro b hb hword
    by_contra hend
    rw [Bool.not_eq_false, Bytes.endsWith, List.isPrefixOf_iff_prefix] at hend
    have hmem : b ∈ name.reverse := hend.subset (by simp)
    exact Edit.not_mem_name hname hb hword (List.mem_reverse.mp hmem)
  have hsemicolon : Bytes.endsWith name (utf8 ";") = false := hends 0x3B (by decide) (by decide)
  have hbrace : Bytes.endsWith name (utf8 "\x7d") = false := hends 0x7D (by decide) (by decide)
  simp only [completed, htrim, hsemicolon, hbrace, Bool.or_self, Bool.false_eq_true, if_false]

/-- An identifier that is entered alone has the value that is bound to it. -/
theorem enter_name {name : Bytes} (hname : Edit.isIdentifier name = true)
    (htrim : Bytes.trim name = name) {o : Options} (hroom : 0 < o.limit)
    (globals : List (Bytes × Value)) :
    ((start o globals).enter name).2.value = (Bindings.ofList globals).get? name := by
  obtain ⟨t, rfl, hbare⟩ := bareExpression?_name hname
  have hrun : Scribe.evaluate o (.reference t) (Interpreter.ofOptions o globals).machine =
      Upshot.andThen Machine.shallower
        (Action.get t (Interpreter.ofOptions o globals).machine.deeper) := by
    rw [Scribe.evaluate, nested_eq _ _ hroom]
  have hscopes : (Interpreter.ofOptions o globals).machine.deeper.scopes.get? t.lexeme =
      (Bindings.ofList globals).get? t.lexeme := rfl
  simp only [enter, completed_name hname htrim, hbare]
  ext v
  rw [evaluate_value, Interpreter.evaluate_eq_ok]
  change (∃ m, Scribe.evaluate o (.reference t) (Interpreter.ofOptions o globals).machine =
    .ok v m) ↔ _
  rw [hrun, Action.get, hscopes]
  cases (Bindings.ofList globals).get? t.lexeme with
  | none => simp [Action.fault, Upshot.andThen]
  | some w => simp [Upshot.andThen]

end Session

namespace Setting

/-! ## Use in scripts -/

/-- A name that settings bind is an identifier that a script can spell, and spelled alone it reads
its value, exactly when it holds no slash. -/
theorem usable_iff {evaluate? : List (Bytes × Datum) → Bytes → Option Datum}
    {names : List (Bytes × Datum)} {settings : List Bytes} {values : List (Bytes × Value)}
    (hvalues : valuesFrom evaluate? names settings = .ok values) {o : Options}
    (hroom : 0 < o.limit) {name : Bytes} {v : Value}
    (hbound : (Bindings.ofList values).get? name = some v) :
    (scan name = ⟨[⟨.identifier, name, .null, 1⟩, Token.endOfText 1], []⟩ ∧
      ((Session.start o values).enter name).2.value = some v) ↔ 0x2F ∉ name := by
  obtain ⟨e, he, rfl⟩ := List.mem_map.mp (Bindings.mem_of_get?_ofList hbound)
  obtain ⟨htrim, hidentifier⟩ := valuesFrom_names hvalues e he
  constructor
  · exact fun h => slash_not_mem_of_scan h.1
  · intro hslash
    obtain ⟨hname, hscan⟩ := scan_identifier htrim hidentifier hslash
    exact ⟨hscan, (Session.enter_name hname htrim hroom values).trans hbound⟩

/-- A name between blanks is bound without them, and reads its value. -/
theorem blank_usable :
    let globals := [(utf8 "x", Value.string (utf8 "a"))]
    Setting.values (fun _ => []) [utf8 " x = \"a\""] = .ok globals ∧
      scan (utf8 "x") = ⟨[⟨.identifier, utf8 "x", .null, 1⟩, Token.endOfText 1], []⟩ ∧
      ((Session.start {} globals).enter (utf8 "x")).2.value = some (.string (utf8 "a")) := by
  have hvalues : Setting.values (fun _ => []) [utf8 " x = \"a\""] =
      .ok [(utf8 "x", .string (utf8 "a"))] := by
    cbv
  intro globals
  have hbound : (Bindings.ofList globals).get? (utf8 "x") = some (.string (utf8 "a")) := rfl
  have hroom : 0 < ({} : Options).limit := by decide
  exact ⟨hvalues, (usable_iff hvalues hroom hbound).mpr (by decide)⟩

/-- The name `x//c` is bound, scans as `x`, and has no value at the prompt. -/
theorem commented_unusable :
    values (fun _ => []) [utf8 "x//c=\"a\""] =
        .ok [(utf8 "x//c", .string (utf8 "a"))] ∧
      scan (utf8 "x//c") = ⟨[⟨.identifier, utf8 "x", .null, 1⟩, Token.endOfText 1], []⟩ ∧
      ((Session.start {} [(utf8 "x//c", .string (utf8 "a"))]).enter (utf8 "x//c")).2.value =
        none := by
  refine ⟨?_, ?_, ?_⟩ <;> cbv

end Setting

end Scribe
