import Scribe.Proofs.Token.Account
import Scribe.Proofs.Token.Comment

/-!
# Tokens written out and scanned again

A lexeme in front of white space is found whole again, whatever stands behind it. So the lexemes of
a scan, each with some white space behind it, are scanned to the same tokens.
-/

namespace Scribe

/-- A token apart from its line. -/
def Token.unlined (t : Token) : Token := { t with line := 0 }

/-- The token that a text alone is scanned to, apart from its line. -/
def Token.ofText (text : Bytes) : Token :=
  ((scan (text ++ [Bytes.space])).tokens.headD (.endOfText 0)).unlined

namespace Scan

/-- White space and comments that end with their line. -/
inductive Filler : Bytes → Prop where
  | nil : Filler []
  | blank {b : UInt8} {rest : Bytes} (h : b ∈ blanks) (hrest : Filler rest) : Filler (b :: rest)
  | comment {t rest : Bytes} (h : Bytes.lineFeed ∉ t) (hrest : Filler rest) :
      Filler (utf8 "//" ++ t ++ Bytes.lineFeed :: rest)

/-- What may stand between two tokens that are written out. -/
inductive Separator : Bytes → Prop where
  | mk {b : UInt8} {rest : Bytes} (h : b ∈ blanks) (hrest : Filler rest) : Separator (b :: rest)

/-- The lexemes of tokens, a separator behind each. -/
def respell (ts : List Token) (separators : List Bytes) : Bytes :=
  (List.zipWith (fun t separator => t.lexeme ++ separator) ts separators).flatten

/-! ## Separators -/

theorem Filler.spells {text : Bytes} (h : Filler text) (line : Nat) (rest : Bytes) :
    ∃ line' : Nat, Spells line text rest [] line' := by
  induction h generalizing line with
  | nil => exact ⟨line, fun _ => rfl⟩
  | @blank b text hblank _ ih =>
      obtain ⟨line', hfirst⟩ := spells_blank line (by simpa [blanks] using hblank) (text ++ rest)
      obtain ⟨line'', hothers⟩ := ih line'
      exact ⟨line'', hfirst.append hothers⟩
  | @comment text more htext _ ih =>
      obtain ⟨line₁, hcomment⟩ := spells_comment line htext (more ++ rest)
      obtain ⟨line₂, hfeed⟩ := spells_blank line₁ (.inr (.inr (.inr rfl))) (more ++ rest)
      obtain ⟨line₃, hothers⟩ := ih line₂
      exact ⟨line₃, hcomment.append (hfeed.append hothers)⟩

/-! ## Lexemes -/

section Blank

variable {b : UInt8} (hblank : b ∈ blanks)
include hblank

theorem blank_stops (rest : Bytes) : Stops continuesWord (b :: rest) ∧
    Stops Char.isDigit (b :: rest) ∧ Stops (· == '.') (b :: rest) := by
  have hall : ∀ b ∈ blanks, continuesWord (Rune.ascii b).char = false ∧
      (Rune.ascii b).char.isDigit = false ∧ ((Rune.ascii b).char == '.') = false := by
    simp only [blanks, List.mem_cons, List.not_mem_nil, or_false]
    rintro b (rfl | rfl | rfl | rfl) <;> decide
  have hascii := blank_ascii hblank
  have hb := hall b hblank
  exact ⟨(stops_cons hascii rest).mpr hb.1, (stops_cons hascii rest).mpr hb.2.1,
    (stops_cons hascii rest).mpr hb.2.2⟩

theorem spells_mark (line : Nat) (rest : Bytes) : ∀ entry ∈ TokenKind.marks,
    ∃ line' : Nat, Spells line entry.2 (b :: rest) [⟨entry.1, entry.2, .null, line'⟩] line' := by
  have hrest := Bytes.runes_ascii_cons (blank_ascii hblank) rest
  simp only [blanks, List.mem_cons, List.not_mem_nil, or_false] at hblank
  simp only [TokenKind.marks, List.forall_mem_cons, List.not_mem_nil, IsEmpty.forall_iff,
    implies_true, and_true]
  and_intros
  all_goals
    refine spells_ascii line (by simp) ?_
    rw [hrest]
    rcases hblank with rfl | rfl | rfl | rfl <;> rfl

/-- A lexeme in front of white space is scanned to its token. -/
theorem spells_lexeme {kind : TokenKind} {text : Bytes} {v : Value} (h : Lexeme kind text v)
    (line : Nat) (rest : Bytes) :
    ∃ line' : Nat, Spells line text (b :: rest) [⟨kind, text, v, line'⟩] line' := by
  obtain ⟨hword, hdigit, hpoint⟩ := blank_stops hblank rest
  cases h with
  | mark hmark => exact spells_mark hblank line rest _ hmark
  | number hplain hread =>
      rw [Decimal.read?_plain hplain, Option.some.injEq] at hread
      rw [← hread]
      exact spells_plain line hplain hdigit hpoint
  | string hinside => exact spells_string line hinside (b :: rest)
  | word hrunes hstart hmore =>
      have hascii := blank_ascii hblank
      exact spells_name line hrunes hstart hmore hascii ((stops_cons hascii rest).mp hword) rest

end Blank

end Scan

open Scan

theorem Lexeme.ofText {kind : TokenKind} {text : Bytes} {v : Value} (h : Lexeme kind text v) :
    Token.ofText text = ⟨kind, text, v, 0⟩ := by
  obtain ⟨line, hspells⟩ := spells_lexeme (b := 0x20) (by simp [blanks]) h 1 []
  have hscan := (hspells.append (spells_space line [])).scan_eq
  rw [Token.ofText]
  simp only [Bytes.space, hscan]
  rfl

/-- A text is a lexeme in one way at most. -/
theorem Lexeme.unique {kind kind' : TokenKind} {text : Bytes} {v v' : Value}
    (h : Lexeme kind text v) (h' : Lexeme kind' text v') : kind = kind' ∧ v = v' := by
  have htoken := h.ofText
  rw [h'.ofText, Token.mk.injEq] at htoken
  exact ⟨htoken.1.symm, htoken.2.2.1.symm⟩

namespace Scan

/-! ## Whole scans -/

/-- What a scan makes of a text: lexemes, and the end mark. -/
theorem Accounted.lexemes {source : Bytes} {place : Nat} {ts : List Token} {ds : List Diagnostic}
    (h : Accounted source place ts ds) : ∃ us line, ts = us ++ [Token.endOfText line] ∧
      ∀ t ∈ us, Lexeme t.kind t.lexeme t.literal := by
  induction h with
  | finish => exact ⟨[], _, rfl, by simp⟩
  | token _ _ _ hlexeme _ ih =>
      obtain ⟨us, line, rfl, hall⟩ := ih
      refine ⟨_ :: us, line, rfl, ?_⟩
      intro t ht
      rcases List.mem_cons.mp ht with rfl | ht
      · exact hlexeme
      · exact hall t ht
  | blank _ _ _ ih => exact ih
  | comment _ _ _ _ _ ih => exact ih
  | rejected _ _ _ ih => exact ih
  | unterminated _ _ => exact ⟨[], _, rfl, by simp⟩

/-- Lexemes with separators behind them are scanned one after the other. -/
theorem spells_respell {ts : List Token} (hts : ∀ t ∈ ts, Lexeme t.kind t.lexeme t.literal)
    {separators : List Bytes} (hlength : separators.length = ts.length)
    (hseparators : ∀ separator ∈ separators, Separator separator) (line : Nat) (rest : Bytes) :
    ∃ us line', us.map Token.unlined = ts.map Token.unlined ∧
      Spells line (respell ts separators) rest us line' := by
  induction ts generalizing separators line with
  | nil => exact ⟨[], line, rfl, fun _ => rfl⟩
  | cons t ts ih =>
      cases separators with
      | nil => simp at hlength
      | cons separator separators =>
          have hothers := ih (fun u hu => hts u (List.mem_cons_of_mem t hu))
            (Nat.succ.inj hlength) fun s hs => hseparators s (List.mem_cons_of_mem separator hs)
          cases hseparators separator List.mem_cons_self with
          | @mk b filler hblank hfiller =>
              obtain ⟨line₁, hlexeme⟩ := spells_lexeme hblank (hts t List.mem_cons_self) line
                (filler ++ (respell ts separators ++ rest))
              obtain ⟨line₂, hbetween⟩ :=
                (Filler.blank hblank hfiller).spells line₁ (respell ts separators ++ rest)
              obtain ⟨us, line₃, hus, hspells⟩ := hothers line₂
              refine ⟨{ t with line := line₁ } :: us, line₃, congrArg₂ List.cons rfl hus, ?_⟩
              have htext : respell (t :: ts) ((b :: filler) :: separators) =
                  t.lexeme ++ (b :: filler) ++ respell ts separators := rfl
              rw [htext]
              exact (hlexeme.append hbetween).append hspells

end Scan

/-- The tokens of a scan are lexemes, and the end mark behind them. -/
theorem scan_lexemes (source : Bytes) :
    ∃ ts line, (scan source).tokens = ts ++ [Token.endOfText line] ∧
      ∀ t ∈ ts, Lexeme t.kind t.lexeme t.literal :=
  (run_accounted [] source).lexemes

/-- The tokens of a scan, written out with separators, are scanned to the same tokens. -/
theorem scan_respelled (source : Bytes) {separators : List Bytes}
    (hlength : separators.length = (scan source).tokens.dropLast.length)
    (hseparators : ∀ separator ∈ separators, Separator separator) :
    (scan (respell (scan source).tokens.dropLast separators)).faults = [] ∧
      (scan (respell (scan source).tokens.dropLast separators)).tokens.map Token.unlined =
        (scan source).tokens.map Token.unlined := by
  obtain ⟨ts, line, hsource, hts⟩ := scan_lexemes source
  rw [hsource, List.dropLast_concat] at hlength ⊢
  obtain ⟨us, line', hus, hspells⟩ := spells_respell hts hlength hseparators 1 []
  rw [hspells.scan_eq]
  refine ⟨rfl, ?_⟩
  rw [List.map_append, List.map_append, hus]
  rfl

/-- A source with two lexical errors, whose tokens are written out behind comments. -/
theorem faulty_source_respelled :
    let source := utf8 "let \u00e9=1.5|<=\"a"
    let separators := [utf8 " ", utf8 "\n// c\n", utf8 "\t", utf8 "\r//\n ", utf8 "\n"]
    (scan source).faults.length = 2 ∧
      separators.length = (scan source).tokens.dropLast.length ∧
      (∀ separator ∈ separators, Separator separator) ∧
      (scan (respell (scan source).tokens.dropLast separators)).faults = [] ∧
      (scan (respell (scan source).tokens.dropLast separators)).tokens.map Token.unlined =
        (scan source).tokens.map Token.unlined := by
  intro source separators
  have hlength : separators.length = (scan source).tokens.dropLast.length := by decide +kernel
  have hseparators : ∀ separator ∈ separators, Separator separator := by
    simp only [separators, List.forall_mem_cons, List.not_mem_nil, IsEmpty.forall_iff,
      implies_true, and_true]
    have hspaces : ∀ b ∈ blanks, Separator [b] := fun b hb => .mk hb .nil
    have hnote : Filler (utf8 "// c\n") := Filler.comment (t := utf8 " c") (by decide) .nil
    have hempty : Filler (utf8 "//\n ") := .comment (t := []) (by decide) (.blank (by decide) .nil)
    exact ⟨hspaces 0x20 (by decide), .mk (b := 0x0A) (by decide) hnote, hspaces 0x09 (by decide),
      .mk (b := 0x0D) (by decide) hempty, hspaces 0x0A (by decide)⟩
  exact ⟨by decide +kernel, hlength, hseparators, scan_respelled source hlength hseparators⟩

end Scribe
