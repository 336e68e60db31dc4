import Scribe.Prompt.Session
import Scribe.Proofs.Lines.Scan
import Scribe.Proofs.Token.Trailing

/-!
# Completed lines

A line at the prompt may lack its final semicolon, which is then written behind the trimmed text.
Whether it lacks one is told by the last byte of that text. This is the last byte of the last token,
unless the text ends in a comment: then whatever is written behind it belongs to the comment.
-/

namespace Scribe

open Scan

/-- A token that ends a line at the prompt. -/
def Token.closes (t : Token) : Bool := t.kind == .semicolon || t.kind == .rightBrace

/-- The token of a text whose first `k` lines are left out. -/
def Token.earlier (k : Nat) (t : Token) : Token := { t with line := t.line - k }

theorem Bytes.endsWith_singleton (text : Bytes) (b : UInt8) :
    Bytes.endsWith text [b] = true ↔ text.getLast? = some b := by
  rw [Bytes.endsWith, List.reverse_singleton, List.isPrefixOf_iff_prefix,
    List.getLast?_eq_head?_reverse]
  cases text.reverse with
  | nil => simp
  | cons c more => simp [eq_comm]

namespace Scan

theorem eq_earlier {k : Nat} {ts us : List Token}
    (h : List.Forall₂ (Token.Alike fun a b => b = a + k) ts us) :
    ts = us.map (Token.earlier k) := by
  induction h with
  | nil => rfl
  | @cons t u ts us hfirst _ ih =>
      rw [List.map_cons, ← ih]
      congr 1
      obtain ⟨hkind, hlexeme, hliteral, hline⟩ := hfirst
      cases t
      simp_all [Token.earlier]

theorem reading_earlier (k : Nat) (text : Bytes) :
    (reading 1 text).tokens = (reading (1 + k) text).tokens.map (Token.earlier k) ∧
      ((reading (1 + k) text).faults = [] → (reading 1 text).faults = []) := by
  have hlines : Shifted (fun a b => b = a + k) 1 (1 + k) (text.count Bytes.lineFeed) := by
    intro j _
    push_cast
    omega
  have hboth := reading_alike hlines
  refine ⟨eq_earlier hboth.tokens, fun hnone => ?_⟩
  have hfaults := hboth.faults
  rw [hnone] at hfaults
  exact List.forall₂_nil_right_iff.mp hfaults

end Scan

namespace Session

def leading (line : Bytes) : Nat := feeds (line.runes.takeWhile (isSpace ·.char))

def lastLine (line : Bytes) : Nat := 1 + (Bytes.trim line).count Bytes.lineFeed

def semicolon (line : Int) : Token := ⟨.semicolon, utf8 ";", .null, line⟩

/-- A line that ends in a comment, white space behind it apart. -/
def commented (line : Bytes) : Bool := endsInComment (Bytes.trim line).runes

theorem completed_eq (line : Bytes) : completed line =
    if ∃ entry ∈ TokenKind.closers, (Bytes.trim line).getLast? = some entry.2 then Bytes.trim line
    else Bytes.trim line ++ utf8 ";" := by
  have hsemicolon : Bytes.endsWith (Bytes.trim line) (utf8 ";") = true ↔ _ :=
    Bytes.endsWith_singleton (Bytes.trim line) 0x3B
  have hbrace : Bytes.endsWith (Bytes.trim line) (utf8 "\x7d") = true ↔ _ :=
    Bytes.endsWith_singleton (Bytes.trim line) 0x7D
  have hends : (Bytes.endsWith (Bytes.trim line) (utf8 ";") ||
      Bytes.endsWith (Bytes.trim line) (utf8 "\x7d")) = true ↔
        ∃ entry ∈ TokenKind.closers, (Bytes.trim line).getLast? = some entry.2 := by
    rw [Bool.or_eq_true, hsemicolon, hbrace]
    simp [TokenKind.closers]
  simp only [completed, hends]

/-- What a line holds is read as it is read alone, on earlier lines. -/
theorem reading_trim {line : Bytes} {ts : List Token} (h : reading 1 line = ⟨ts, []⟩) :
    reading 1 (Bytes.trim line) = ⟨ts.map (Token.earlier (leading line)), []⟩ := by
  have hclean : (read ⟨[], []⟩ 1 line.runes).faults = [] := congrArg Result.faults h
  have htrim : reading (1 + leading line) (Bytes.trim line) = ⟨ts, []⟩ := by
    rw [reading, Bytes.runes_trim, ← h, reading, read_trimRunes hclean]
    rfl
  obtain ⟨htokens, hfaults⟩ := reading_earlier (leading line) (Bytes.trim line)
  rw [htrim] at htokens hfaults
  rw [← htokens, ← hfaults rfl]

/-- Of a semicolon that is written behind a line, nothing is read in a comment. -/
theorem reading_semicolon {line : Bytes} (hclean : (reading 1 (Bytes.trim line)).faults = []) :
    reading 1 (Bytes.trim line ++ utf8 ";") =
      if commented line then reading 1 (Bytes.trim line)
      else ⟨semicolon (lastLine line) :: (reading 1 (Bytes.trim line)).tokens, []⟩ := by
  have hstopper : Stopper (Rune.ascii 0x3B) :=
    ⟨by decide, by decide, by decide, by decide, by decide⟩
  have hrunes : Bytes.runes (Bytes.trim line ++ utf8 ";") =
      (Bytes.trim line).runes ++ [Rune.ascii 0x3B] := by
    have hcut := Bytes.runes_append (q := 0x3B) (by decide) (Bytes.trim line) []
    rwa [Bytes.runes_ascii_cons (by decide), Bytes.runes_nil] at hcut
  have hstep : step (Rune.ascii 0x3B) [] = single .semicolon (Rune.ascii 0x3B) [] := rfl
  have hpass : [Rune.ascii 0x3B].dropWhile (!isFeed ·) = [] := by decide
  rw [reading, hrunes, read_append_left hclean hstopper, left, feeds_runes, commented]
  split
  · rw [hpass, read_nil]
    rfl
  · rw [read_cons, hstep]
    simp only [single, read_nil]
    change Result.mk _ (reading 1 (Bytes.trim line)).faults = _
    rw [hclean]
    rfl

/-- Without a comment at its end, the last byte of a line tells whether its last token closes it. -/
theorem closes_iff {line : Bytes} {last : Token} {ts : List Token}
    (hline : reading 1 (Bytes.trim line) = ⟨last :: ts, []⟩) (hcomment : commented line = false) :
    last.closes = true ↔
      ∃ entry ∈ TokenKind.closers, (Bytes.trim line).getLast? = some entry.2 := by
  have hsome : Bytes.trim line ≠ [] := by
    intro hnone
    rw [hnone, reading, Bytes.runes_nil, read_nil] at hline
    cases hline
  have hspace : ∀ r ∈ (Bytes.trim line).runes.getLast?, isSpace r.char = false := by
    rw [Bytes.runes_trim]
    exact fun r hr => Bytes.isSpace_of_getLast?_trimRunes hr
  obtain ⟨t, front, hhead, hlexeme, htext⟩ :=
    ends_in_token hsome (congrArg Result.faults hline) hspace hcomment
  rw [hline] at hhead
  obtain rfl : last = t := Option.some.inj hhead
  have hlast : (Bytes.trim line).getLast? = last.lexeme.getLast? := by
    rw [htext, List.getLast?_append_of_ne_nil _ hlexeme.ne_nil]
  have hclosers := hlexeme.getLast?_closer
  simp only [TokenKind.closers, List.forall_mem_cons] at hclosers ⊢
  rw [hlast]
  simp [Token.closes, hclosers]

theorem reading_completed {line : Bytes} {last : Token} {ts : List Token}
    (hline : reading 1 (Bytes.trim line) = ⟨last :: ts, []⟩) : reading 1 (completed line) =
      ⟨if last.closes || commented line then last :: ts
        else semicolon (lastLine line) :: last :: ts, []⟩ := by
  have hmore := reading_semicolon (congrArg Result.faults hline)
  rw [completed_eq]
  cases hcomment : commented line with
  | true =>
      rw [hcomment, if_pos rfl] at hmore
      rw [Bool.or_true, if_pos rfl]
      split
      · exact hline
      · exact hmore.trans hline
  | false =>
      rw [hcomment, if_neg Bool.false_ne_true, hline] at hmore
      have hcloses := closes_iff hline hcomment
      rw [Bool.or_false]
      cases hlast : last.closes with
      | true =>
          rw [if_pos (hcloses.mp hlast), if_pos rfl]
          exact hline
      | false =>
          have hopen : ¬ last.closes = true := by simp [hlast]
          rw [if_neg (hcloses.not.mp hopen), if_neg Bool.false_ne_true]
          exact hmore

theorem count_completed (line : Bytes) : 1 + (completed line).count Bytes.lineFeed =
    lastLine line := by
  rw [completed_eq]
  split
  · rfl
  · rw [List.count_append]
    rfl

/-- What a completed line is scanned to: the tokens of the line, and a semicolon if they lack one
and no comment stands in its way. -/
theorem scan_completed {line : Bytes} {ts : List Token} {last finish : Token}
    (hline : scan line = ⟨ts ++ [last, finish], []⟩) :
    scan (completed line) =
      ⟨(ts ++ [last]).map (Token.earlier (leading line)) ++
          (if last.closes || commented line then [] else [semicolon (lastLine line)]) ++
          [Token.endOfText (lastLine line)], []⟩ := by
  have hreading : reading 1 line = ⟨last :: ts.reverse, []⟩ := by
    rw [scan_eq, Result.closed, Result.mk.injEq, List.reverse_eq_nil_iff] at hline
    obtain ⟨htokens, hfaults⟩ := hline
    have hfront := congrArg List.dropLast htokens
    rw [List.dropLast_concat, List.append_cons, List.dropLast_concat] at hfront
    have hback := congrArg List.reverse hfront
    rw [List.reverse_reverse, List.reverse_concat] at hback
    rw [← hfaults, ← hback]
  have htrim := reading_trim hreading
  rw [List.map_cons] at htrim
  have hcloses : (last.earlier (leading line)).closes = last.closes := rfl
  rw [scan_eq, count_completed, reading_completed htrim, hcloses, Result.closed]
  split <;> simp

/-- A completed line holds the tokens of the line and the semicolon that they lack, if they lack
one, exactly when they end in a semicolon or a brace, or the line does not end in a comment. -/
theorem semicolon_supplied_iff {line : Bytes} {ts : List Token} {last finish : Token}
    (hline : scan line = ⟨ts ++ [last, finish], []⟩) :
    scan (completed line) =
        ⟨(ts ++ [last]).map (Token.earlier (leading line)) ++
            (if last.closes then [] else [semicolon (lastLine line)]) ++
            [Token.endOfText (lastLine line)], []⟩ ↔
      last.closes = true ∨ commented line = false := by
  rw [scan_completed hline]
  cases last.closes <;> cases commented line <;> simp

/-- A semicolon is supplied behind a line between blanks. -/
theorem nil_completed :
    scan (utf8 " nil ") = ⟨[] ++ [⟨.kwNil, utf8 "nil", .null, 1⟩, Token.endOfText 1], []⟩ ∧
      scan (completed (utf8 " nil ")) =
        ⟨[⟨.kwNil, utf8 "nil", .null, 1⟩, ⟨.semicolon, utf8 ";", .null, 1⟩, Token.endOfText 1],
          []⟩ := by
  have hline : scan (utf8 " nil ") =
      ⟨[] ++ [⟨.kwNil, utf8 "nil", .null, 1⟩, Token.endOfText 1], []⟩ := by
    cbv
  have hcomment : commented (utf8 " nil ") = false := by cbv
  exact ⟨hline, ((semicolon_supplied_iff hline).mpr (.inr hcomment)).trans (by cbv)⟩

/-- The semicolon that is supplied behind a comment belongs to the comment. -/
theorem commented_lacks_semicolon :
    scan (utf8 "nil // x") = ⟨[⟨.kwNil, utf8 "nil", .null, 1⟩, Token.endOfText 1], []⟩ ∧
      scan (completed (utf8 "nil // x")) = scan (utf8 "nil // x") := by
  constructor <;> cbv

end Session

end Scribe
