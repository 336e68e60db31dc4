import Scribe.Prompt.Edit
import Scribe.Proofs.Token.Comment
import Scribe.Proofs.Value.Display
import Scribe.Proofs.Value.Literal

/-!
# The script of a session

The script that a session is edited as declares every binding whose value has a literal, and keeps
the others as comments. A comment ends with its line, and a string is written with all its lines.
So the script restores the session unless such a string brings a line of its own into the script.
-/

namespace Scribe

open Scan Literal

namespace Edit

/-! ## Names -/

/-- A letter or an underscore, then also digits. No keyword is a name. -/
def isIdentifier (name : Bytes) : Bool :=
  match name.runes with
  | [] => false
  | r :: rs =>
      startsWord r.char && rs.all (continuesWord ·.char) && TokenKind.ofWord name == .identifier

theorem continuesWord_of_isIdentifier {name : Bytes} (h : isIdentifier name = true) :
    ∀ r ∈ name.runes, continuesWord r.char = true := by
  unfold isIdentifier at h
  split at h
  · cases h
  · next r rs hrunes =>
      rw [Bool.and_eq_true, Bool.and_eq_true, List.all_eq_true] at h
      rw [hrunes]
      intro s hs
      rcases List.mem_cons.mp hs with rfl | hs
      · rw [continuesWord, h.1.1, Bool.true_or]
      · exact h.1.2 s hs

theorem isIdentifier_iff {name : Bytes} : isIdentifier name = true ↔
    ∃ r rs, name.runes = r :: rs ∧ startsWord r.char = true ∧
      (∀ s ∈ rs, continuesWord s.char = true) ∧ TokenKind.ofWord name = .identifier := by
  unfold isIdentifier
  cases name.runes with
  | nil => simp
  | cons r rs => simp [and_assoc]

theorem not_mem_name {name : Bytes} (h : isIdentifier name = true) {b : UInt8} (hb : b < 0x80)
    (hword : continuesWord (Rune.ascii b).char = false) : b ∉ name := by
  rw [← Bytes.mem_runes_ascii hb]
  intro hmem
  rw [continuesWord_of_isIdentifier h _ hmem] at hword
  cases hword

theorem lineFeed_not_mem_name {name : Bytes} (h : isIdentifier name = true) :
    Bytes.lineFeed ∉ name :=
  not_mem_name h (by decide) (by decide)

theorem names_of_isIdentifier {name : Bytes} (h : isIdentifier name = true) : Names name := by
  intro line rest
  have hall := continuesWord_of_isIdentifier h
  unfold isIdentifier at h
  split at h
  · cases h
  · next r rs hrunes =>
      rw [Bool.and_eq_true, Bool.and_eq_true, beq_iff_eq] at h
      have hmore : ∀ s ∈ rs, continuesWord s.char = true :=
        fun s hs => hall s (hrunes ▸ List.mem_cons_of_mem r hs)
      rw [← h.2]
      exact spells_name line hrunes h.1.1 hmore (by decide) (by decide) rest

/-! ## Comments -/

/-- Every line of a text but the first is quiet, with a semicolon behind the last. -/
def isRemark (text : Bytes) : Bool :=
  (Bytes.splitOn Bytes.lineFeed (text ++ utf8 ";")).tail.all isQuiet

/-- A text of one line is a remark. -/
theorem isRemark_of_not_mem {text : Bytes} (h : Bytes.lineFeed ∉ text) : isRemark text = true := by
  have hline : Bytes.lineFeed ∉ text ++ utf8 ";" := by
    rw [List.mem_append, not_or]
    exact ⟨h, by decide⟩
  rw [isRemark, Bytes.splitOn_of_not_mem hline]
  rfl

/-- What stands in front of the value in a comment. -/
def remarkHead (name : Bytes) : Bytes := utf8 "// let " ++ name ++ utf8 " = "

section Remark

variable {name : Bytes} {v : Value} (hname : isIdentifier name = true) (hnone : v.literal? = none)
include hname hnone

/-- A comment in the script, with the line feed at its end set apart. -/
theorem declaration_of_none :
    ∃ text, declaration name v = text ++ [Bytes.lineFeed] ∧
      (Bytes.splitOn Bytes.lineFeed text).all isQuiet = isRemark v.display := by
  have hhead : Bytes.lineFeed ∉ remarkHead name := by
    simp only [remarkHead, List.mem_append, not_or]
    exact ⟨⟨by decide, lineFeed_not_mem_name hname⟩, by decide⟩
  obtain ⟨piece, pieces, hpieces, hall⟩ := Bytes.splitOn_behind hhead (v.display ++ utf8 ";")
  have hfirst : isQuiet (remarkHead name ++ piece) = true := rfl
  refine ⟨remarkHead name ++ (v.display ++ utf8 ";"), ?_, ?_⟩
  · have hend : utf8 ";
" = utf8 ";" ++ [Bytes.lineFeed] := rfl
    simp only [declaration, hnone, remarkHead, hend, List.append_assoc]
  · rw [hall, List.all_cons, hfirst, isRemark, hpieces, Bool.true_and, List.tail_cons]

theorem silent_declaration_iff (line : Nat) :
    Silent line (declaration name v) ↔ isRemark v.display = true := by
  obtain ⟨text, htext, hquiet⟩ := declaration_of_none hname hnone
  rw [htext, silent_iff, hquiet]

theorem spells_remark (h : isRemark v.display = true) (line : Nat) (rest : Bytes) :
    ∃ line' : Nat, Spells line (declaration name v) rest [] line' := by
  obtain ⟨text, htext, hquiet⟩ := declaration_of_none hname hnone
  rw [htext]
  exact spells_quiet (hquiet.trans h) line rest

end Remark

/-! ## The script -/

def literals (entries : List (Bytes × Value)) : List (Bytes × Value) :=
  entries.filter (·.2.literal?.isSome)

theorem spells_entry {name : Bytes} {v : Value} {lit : Bytes} (hname : isIdentifier name = true)
    (hlit : v.literal? = some lit) (line : Nat) (rest : Bytes) :
    ∃ ts s line', Declares name v ts s ∧ Spells line (declaration name v) rest ts line' := by
  have hline : declaration name v = Literal.declaration name lit ++ [Bytes.lineFeed] := by
    have hlet : utf8 "let " = utf8 "let" ++ [0x20] := rfl
    have hequals : utf8 " = " = [0x20] ++ ([0x3D] ++ [0x20]) := rfl
    have hend : utf8 ";\n" = [0x3B] ++ [Bytes.lineFeed] := rfl
    simp only [declaration, hlit, Literal.declaration, assigned, hlet, hequals, hend,
      List.append_assoc]
  obtain ⟨ts, s, line', hdeclares, hspells⟩ :=
    declaration_spells hlit line ([Bytes.lineFeed] ++ rest) (names_of_isIdentifier hname)
  obtain ⟨line'', hend⟩ := spells_blank line' (.inr (.inr (.inr rfl))) rest
  have hboth := hspells.append hend
  rw [List.append_nil, ← hline] at hboth
  exact ⟨ts, s, line'', hdeclares, hboth⟩

theorem spells_entries {entries : List (Bytes × Value)}
    (hnames : ∀ e ∈ entries, isIdentifier e.1 = true)
    (hremarks : ∀ e ∈ entries, e.2.literal? = none → isRemark e.2.display = true) (line : Nat)
    (rest : Bytes) :
    ∃ ts ss line', DeclaresAll (literals entries) ts ss ∧
      Spells line (entries.flatMap fun e => declaration e.1 e.2) rest ts line' := by
  induction entries generalizing line with
  | nil => exact ⟨[], [], line, .nil, fun _ => rfl⟩
  | cons e entries ih =>
      obtain ⟨name, v⟩ := e
      have hname : isIdentifier name = true := hnames (name, v) List.mem_cons_self
      have hothers := ih (fun e he => hnames e (List.mem_cons_of_mem _ he))
        (fun e he => hremarks e (List.mem_cons_of_mem _ he))
      cases hlit : v.literal? with
      | none =>
          have hremark := hremarks (name, v) List.mem_cons_self hlit
          obtain ⟨line', hfirst⟩ := spells_remark hname hlit hremark line
            ((entries.flatMap fun e => declaration e.1 e.2) ++ rest)
          obtain ⟨ts, ss, line'', hall, hspells⟩ := hothers line'
          refine ⟨ts, ss, line'', ?_, hfirst.append hspells⟩
          rwa [literals, List.filter_cons_of_neg (by simp [hlit])]
      | some lit =>
          obtain ⟨us, s, line', hdeclares, hfirst⟩ := spells_entry hname hlit line
            ((entries.flatMap fun e => declaration e.1 e.2) ++ rest)
          obtain ⟨ts, ss, line'', hall, hspells⟩ := hothers line'
          refine ⟨us ++ ts, s :: ss, line'', ?_, hfirst.append hspells⟩
          rw [literals, List.filter_cons_of_pos (by simp [hlit])]
          exact .cons hdeclares hall

section Script

variable {b : Bindings} (hnames : ∀ e ∈ b.entries, isIdentifier e.1 = true)
  (hremarks : ∀ e ∈ b.entries, e.2.literal? = none → isRemark e.2.display = true)
include hnames hremarks

theorem script_spells : ∃ ts ss line', DeclaresAll (literals b.entries) ts ss ∧
    Spells 1 (script b) [] ts line' := by
  let header := utf8 "// Session bindings. Saving replaces the session with this script."
  have hquiet : isQuiet header = true := rfl
  have hfeed : Bytes.lineFeed ∉ header := by decide
  have hsplit : script b =
      header ++ [Bytes.lineFeed] ++ b.entries.flatMap fun e => declaration e.1 e.2 := rfl
  obtain ⟨line, hheader⟩ := spells_line hquiet hfeed 1 (b.entries.flatMap _ ++ [])
  obtain ⟨ts, ss, line', hall, hentries⟩ := spells_entries hnames hremarks line []
  rw [hsplit]
  exact ⟨ts, ss, line', hall, hheader.append hentries⟩

/-- The script compiles, and a run of it binds the names that have literals. -/
theorem script_run {o : Options} (hlive : o.cancelled = false) (hon : o.arrayElements = true)
    (hlimit : ∀ e ∈ b.entries, e.2.nesting + 3 ≤ o.limit) :
    (Program.ofSource (script b) o.limit).diagnostics = [] ∧
      ((Interpreter.ofOptions o).run (script b)).diagnostics = [] ∧
      ((Interpreter.ofOptions o).run (script b)).interpreter.bindings.entries =
        literals b.entries := by
  obtain ⟨ts, ss, line, hall, hspells⟩ := script_spells hnames hremarks
  have hroom : ∀ e ∈ literals b.entries, e.2.nesting + 3 ≤ o.limit :=
    fun e he => hlimit e (List.mem_of_mem_filter he)
  have hlevels : ∀ e ∈ literals b.entries, e.2.nesting + 2 ≤ o.limit :=
    fun e he => Nat.le_of_succ_le (hroom e he)
  obtain ⟨hstmts, hquiet⟩ := hall.made hspells hlevels
  obtain ⟨hdiagnostics, hbindings⟩ := hall.run (i := .ofOptions o) hstmts hquiet hlive hon
    (fun e he => by simpa [Interpreter.ofOptions] using hroom e he) rfl
  have hascending : ((literals b.entries).map Prod.fst).Pairwise (· < ·) :=
    b.ascending.sublist (List.filter_sublist.map Prod.fst)
  refine ⟨hquiet, hdiagnostics, ?_⟩
  rw [← Bindings.ofList_entries hascending]
  exact congrArg Bindings.entries hbindings

end Script

theorem literal?_string_eq_none {text : Bytes} :
    (Value.string text).literal? = none ↔ Bytes.quote ∈ text := by
  rw [Value.literal?]
  split <;> simp_all

/-- A value without a literal stays on its line, unless it is a string. -/
theorem isRemark_display {v : Value} (hnone : v.literal? = none)
    (h : ∀ text, v = .string text → Bytes.quote ∈ text → isRemark text = true) :
    isRemark v.display = true := by
  by_cases hstring : ∃ text, v = .string text
  · obtain ⟨text, rfl⟩ := hstring
    have htext : (Value.string text).display = text := by
      rw [Value.display, Value.displayOnto, List.append_nil]
    rw [htext]
    exact h text rfl (literal?_string_eq_none.mp hnone)
  · exact isRemark_of_not_mem (Value.lineFeed_not_mem_display fun text heq => hstring ⟨text, heq⟩)

/-- The script of a session compiles, restores exactly the bindings that have literals, and has
nothing but comments for the others, exactly if every string with a quote brings only blank lines
and comments into the script behind its first line. -/
theorem script_restores_iff {b : Bindings} (hnames : ∀ e ∈ b.entries, isIdentifier e.1 = true)
    {limit : Nat} (hlimit : ∀ e ∈ b.entries, e.2.nesting + 3 ≤ limit) (blockScope : Bool) :
    let o : Options := { blockScope, arrayElements := true, limit }
    let done := (Interpreter.ofOptions o).run (script b)
    ((Program.ofSource (script b) limit).diagnostics = [] ∧ done.diagnostics = [] ∧
      done.interpreter.bindings.entries = literals b.entries ∧
      ∀ e ∈ b.entries, e.2.literal? = none → Silent 1 (declaration e.1 e.2)) ↔
    ∀ name text, (name, .string text) ∈ b.entries → Bytes.quote ∈ text →
      isRemark text = true := by
  intro o done
  constructor
  · rintro ⟨-, -, -, hsilent⟩ name text hmem hquote
    have hnone := literal?_string_eq_none.mpr hquote
    have hremark := (silent_declaration_iff (hnames _ hmem) hnone 1).mp (hsilent _ hmem hnone)
    rwa [Value.display, Value.displayOnto, List.append_nil] at hremark
  · intro h
    have hremarks : ∀ e ∈ b.entries, e.2.literal? = none → isRemark e.2.display = true := by
      rintro ⟨name, v⟩ he hnone
      exact isRemark_display hnone fun text heq => h name text (heq ▸ he)
    obtain ⟨hquiet, hdiagnostics, hbindings⟩ :=
      script_run hnames hremarks (o := o) rfl rfl hlimit
    refine ⟨hquiet, hdiagnostics, hbindings, fun e he hnone => ?_⟩
    exact (silent_declaration_iff (hnames e he) hnone 1).mpr (hremarks e he hnone)

/-- An infinite number, a string whose second line is a comment, and an array. -/
theorem quiet_lines_restored :
    let entries : List (Bytes × Value) := [(utf8 "big", .number (1 / 0)),
      (utf8 "note", .string (utf8 "\"\n // all")), (utf8 "\u00e9", .array [.boolean true])]
    let b : Bindings := .ofList entries
    let done := (Interpreter.ofOptions { arrayElements := true }).run (script b)
    b.entries = entries ∧ (∀ e ∈ b.entries, isIdentifier e.1 = true) ∧
      (∀ e ∈ b.entries, e.2.nesting + 3 ≤ defaultLimit) ∧
      literals b.entries = [(utf8 "\u00e9", .array [.boolean true])] ∧
      (Program.ofSource (script b) defaultLimit).diagnostics = [] ∧ done.diagnostics = [] ∧
      done.interpreter.bindings.entries = literals b.entries ∧
      ∀ e ∈ b.entries, e.2.literal? = none → Silent 1 (declaration e.1 e.2) := by
  intro entries b done
  have hentries : b.entries = entries := rfl
  have hnames : ∀ e ∈ b.entries, isIdentifier e.1 = true := by decide +kernel
  have hlimit : ∀ e ∈ b.entries, e.2.nesting + 3 ≤ defaultLimit := by decide +kernel
  have hliterals : literals b.entries = [(utf8 "\u00e9", .array [.boolean true])] := by
    have hbig : (Value.number (1 / 0)).literal?.isSome = false := by decide +kernel
    have hnote : (Value.string (utf8 "\"\n // all")).literal?.isSome = false := by decide +kernel
    have harray : (Value.array [.boolean true]).literal?.isSome = true := by decide +kernel
    rw [hentries, literals, List.filter_cons_of_neg (by simp [hbig]),
      List.filter_cons_of_neg (by simp [hnote]), List.filter_cons_of_pos (by simp [harray]),
      List.filter_nil]
  have hremarks : ∀ name text, (name, .string text) ∈ b.entries → Bytes.quote ∈ text →
      isRemark text = true := by
    rw [hentries]
    simp only [entries, List.mem_cons, List.not_mem_nil, Prod.mk.injEq, Value.string.injEq,
      reduceCtorEq, and_false, or_false, false_or]
    rintro name text ⟨-, rfl⟩ -
    decide +kernel
  refine ⟨hentries, hnames, hlimit, hliterals, ?_⟩
  exact (script_restores_iff hnames hlimit false).mpr hremarks

set_option maxRecDepth 2000 in
/-- The second line of a string with a quote is run, and binds another name. -/
theorem second_line_runs :
    let b : Bindings := .ofList [(utf8 "s", .string (utf8 "\"\nx=nil"))]
    let done := (Interpreter.ofOptions { arrayElements := true }).run (script b)
    (∀ e ∈ b.entries, isIdentifier e.1 = true ∧ e.2.nesting + 3 ≤ defaultLimit) ∧
      literals b.entries = [] ∧ done.interpreter.bindings.names = [utf8 "x"] ∧
      done.interpreter.bindings.entries ≠ literals b.entries := by
  intro b done
  have hentries : b.entries = [(utf8 "s", .string (utf8 "\"\nx=nil"))] := rfl
  have hlits : literals b.entries = [] := by
    rw [hentries]
    rfl
  have hrun : done.interpreter.bindings.names = [utf8 "x"] := by cbv
  have hname : isIdentifier (utf8 "s") = true := by cbv
  have hentry : ∀ e ∈ b.entries, isIdentifier e.1 = true ∧ e.2.nesting + 3 ≤ defaultLimit := by
    rw [hentries]
    simp [hname, Value.nesting, defaultLimit]
  refine ⟨hentry, hlits, hrun, fun heq => ?_⟩
  rw [Bindings.names, heq, hlits] at hrun
  cases hrun

end Edit

end Scribe
