import Scribe.Proofs.Text.Space
import Scribe.Proofs.Token.Comment
import Scribe.Proofs.Token.Lexeme

/-!
# Where a text ends

What is written behind a text is read on its own, if the text is scanned without a fault and what
follows starts with a rune that ends words, numbers and operators; white space is such a rune. The
exception is a text whose last item is a comment: the comment goes on to the next line feed.
-/

namespace Scribe

namespace Scan

/-- The last item of a text is a comment, which goes on behind the text. -/
def endsInComment : List Rune → Bool
  | [] => false
  | r :: rest => (step r rest).isOpen || endsInComment (step r rest).rest
termination_by rs => rs.length
decreasing_by exact Nat.lt_succ_of_le (step_rest_length r rest)

theorem endsInComment_cons (r : Rune) (rest : List Rune) : endsInComment (r :: rest) =
    ((step r rest).isOpen || endsInComment (step r rest).rest) := by
  rw [endsInComment]

/-- What is left to read on its own of what stands behind a text. -/
def left (rs ss : List Rune) : List Rune :=
  if endsInComment rs then ss.dropWhile (!isFeed ·) else ss

/-! ## White space -/

/-- The characters that start an item other than a word or a number. -/
def markChars : List Char :=
  ['(', ')', '{', '}', '[', ']', ',', '.', '-', '+', ';', '*', '!', '=', '<', '>', '&', '|', '/',
    '"']

def spaceCodes : List Nat :=
  [0x09, 0x0A, 0x0B, 0x0C, 0x0D, 0x20, 0x85, 0xA0, 0x1680, 0x2000, 0x2001, 0x2002, 0x2003, 0x2004,
    0x2005, 0x2006, 0x2007, 0x2008, 0x2009, 0x200A, 0x2028, 0x2029, 0x202F, 0x205F, 0x3000]

theorem mem_spaceCodes {c : Char} (h : isSpace c = true) : c.toNat ∈ spaceCodes := by
  simp only [isSpace, Bool.or_eq_true, Bool.and_eq_true, beq_iff_eq, decide_eq_true_eq] at h
  simp only [or_assoc] at h
  rcases h with h | h | h | h | h | h | h | h | h | h | h | h | h | h | h
  all_goals first
    | (rw [h]; decide)
    | (simp only [spaceCodes, List.mem_cons]; omega)

/-- White space is part of no word and of no number, and it is no mark. -/
theorem spaceCodes_stop : ∀ n ∈ spaceCodes, continuesWord (Char.ofNat n) = false ∧
    (Char.ofNat n).isDigit = false ∧
      Char.ofNat n ∉ markChars := by
  decide +kernel

theorem stop_of_isSpace {c : Char} (h : isSpace c = true) : continuesWord c = false ∧
    c.isDigit = false ∧ c ∉ markChars := by
  have hstop := spaceCodes_stop c.toNat (mem_spaceCodes h)
  rwa [Char.ofNat_toNat] at hstop

theorem stopper_of_isSpace {a : Rune} (h : isSpace a.char = true) : Stopper a := by
  obtain ⟨hword, hdigit, hmark⟩ := stop_of_isSpace h
  have hne : ∀ c ∈ markChars, (a.char == c) = false := by
    intro c hc
    rw [beq_eq_false_iff_ne]
    rintro rfl
    exact hmark hc
  exact ⟨hne _ (by decide), hne _ (by decide), hne _ (by decide), hdigit, hword⟩

theorem blank_isSpace {b : UInt8} (h : b ∈ blanks) : isSpace (Rune.ascii b).char = true := by
  have hall : ∀ b ∈ blanks, isSpace (Rune.ascii b).char = true := by
    simp only [blanks, List.mem_cons, List.not_mem_nil, or_false]
    rintro b (rfl | rfl | rfl | rfl) <;> decide
  exact hall b h

theorem step_space {r : Rune} (h : isSpace r.char = true) (rest : List Rune) :
    step r rest = ⟨.skipped, [r], rest⟩ ∨ ∃ cause, (step r rest).item = .fault cause := by
  obtain ⟨hword, hdigit, hmark⟩ := stop_of_isSpace h
  have hstart : startsWord r.char = false := (Bool.or_eq_false_iff.mp hword).1
  unfold step
  split
  case h_25 =>
    rw [if_neg (by rw [hdigit]; decide), if_neg (by rw [hstart]; decide)]
    exact .inr ⟨_, rfl⟩
  all_goals
    next heq =>
      first
        | exact .inl rfl
        | exact absurd (heq ▸ hmark) (by decide)

/-- White space in front of a text without faults only counts lines. -/
theorem read_space {done : Result} {line : Nat} {before : List Rune}
    (hbefore : ∀ r ∈ before, isSpace r.char = true) {rs : List Rune}
    (hclean : (read done line (before ++ rs)).faults = []) :
    read done line (before ++ rs) = read done (line + feeds before) rs := by
  induction before generalizing line with
  | nil => rfl
  | cons r before ih =>
      obtain ⟨hr, hothers⟩ := List.forall_mem_cons.mp hbefore
      rw [List.cons_append, read_cons] at hclean ⊢
      rcases step_space hr (before ++ rs) with hstep | ⟨cause, hfault⟩
      · have hfeeds : feeds ([r] ++ before) = feeds [r] + feeds before := List.countP_append
        simp only [hstep, Result.add] at hclean ⊢
        rw [ih hothers hclean, Nat.add_assoc, ← hfeeds]
        rfl
      · have hdone := faults_of_read hclean
        simp only [Result.add, hfault] at hdone
        cases hdone

/-! ## What stands behind a text -/

theorem step_clean {done : Result} {line : Nat} {r : Rune} {rest : List Rune}
    (hclean : (read done line (r :: rest)).faults = []) (cause : LexicalCause) :
    (step r rest).item ≠ .fault cause := by
  intro hfault
  rw [read_cons] at hclean
  have hdone := faults_of_read hclean
  simp only [Result.add, hfault] at hdone
  cases hdone

/-- A comment starts with two slashes and goes on to the next line feed. -/
theorem step_comment {r : Rune} {rest : List Rune} (h : (step r rest).isComment = true) :
    ∃ s more, rest = s :: more ∧ ∀ rs, step r (s :: rs) =
      ⟨.skipped, r :: s :: rs.takeWhile (!isFeed ·), rs.dropWhile (!isFeed ·)⟩ := by
  unfold Step.isComment at h
  split at h
  · next hskipped =>
      rcases skipped_cases hskipped with hblank | ⟨hslash, s, hs, hnext⟩
      · exfalso
        rcases hblank with hr | hr | hr | hr <;> simp [step, hr] at h
      · cases rest with
        | nil => cases hs
        | cons t more =>
            obtain rfl : t = s := Option.some.inj hs
            refine ⟨t, more, rfl, fun rs => ?_⟩
            simp [step, hslash, slash, hnext]
  · cases h

/-- A comment that goes on behind its text ends in front of a line feed there. -/
theorem step_open {r : Rune} {rest : List Rune} (h : (step r rest).isOpen = true)
    (ss : List Rune) : step r (rest ++ ss) =
      ⟨.skipped, r :: rest ++ ss.takeWhile (!isFeed ·), ss.dropWhile (!isFeed ·)⟩ := by
  obtain ⟨hcomment, hnone⟩ := Bool.and_eq_true_iff.mp h
  obtain ⟨s, more, rfl, hstep⟩ := step_comment hcomment
  have hdrop : more.dropWhile (!isFeed ·) = [] := by
    rw [hstep] at hnone
    exact List.isEmpty_iff.mp hnone
  have hall : ∀ r ∈ more, (!isFeed r) = true := List.dropWhile_eq_nil_iff.mp hdrop
  rw [List.cons_append, hstep, List.takeWhile_append_of_pos hall, List.dropWhile_append_of_pos hall]
  rfl

theorem feeds_append (rs ss : List Rune) : feeds (rs ++ ss) = feeds rs + feeds ss :=
  List.countP_append

theorem feeds_takeWhile (rs : List Rune) : feeds (rs.takeWhile (!isFeed ·)) = 0 := by
  rw [feeds, List.countP_eq_zero]
  intro r hr hfeed
  have hpass := List.mem_takeWhile_imp (p := (!isFeed ·)) hr
  simp [hfeed] at hpass

/-- Behind a text without faults, what does not belong to a comment is read on its own. -/
theorem read_append_left {done : Result} {line : Nat} {rs : List Rune}
    (hclean : (read done line rs).faults = []) {a : Rune} (ha : Stopper a) (ss : List Rune) :
    read done line (rs ++ a :: ss) =
      read (read done line rs) (line + feeds rs) (left rs (a :: ss)) := by
  fun_induction read done line rs with
  | case1 done line => simp [left, endsInComment, feeds]
  | case2 done line r rest ih =>
      rw [← read_cons] at hclean
      have hstep := step_clean hclean
      rw [read_cons] at hclean
      rw [List.cons_append, read_cons, feeds_cons r rest, ← Nat.add_assoc, left,
        endsInComment_cons]
      cases hopen : (step r rest).isOpen with
      | true =>
          have hself : step r rest = ⟨.skipped, r :: rest, []⟩ := by
            simpa using step_open hopen []
          rw [step_open hopen, hself]
          simp only [Result.add, feeds_append, feeds_takeWhile, read_nil, Bool.true_or, if_true]
          rfl
      | false =>
          rw [step_before ha r rest ss hstep (.inr hopen)]
          exact ih hclean

/-! ## White space behind a text -/

section Space

variable {r : Rune} {rest ss : List Rune} {cause : LexicalCause}
  (hss : ∀ s ∈ ss, isSpace s.char = true)
include hss

theorem doubled_fault {kind : TokenKind} (hr : r.char ∈ markChars)
    (h : (doubled kind r rest).item = .fault cause) :
    (doubled kind r (rest ++ ss)).item = .fault cause := by
  cases rest with
  | cons s rest =>
      simp only [List.cons_append, doubled] at h ⊢
      split at h
      · cases h
      · next hne =>
          rw [if_neg hne]
          exact h
  | nil =>
      cases ss with
      | nil => exact h
      | cons s ss =>
          have hne : (s.char == r.char) = false := by
            rw [beq_eq_false_iff_ne]
            intro heq
            exact (stop_of_isSpace (hss s List.mem_cons_self)).2.2 (heq ▸ hr)
          simp only [List.nil_append, doubled, hne, Bool.false_eq_true, if_false]
          exact h

theorem string_fault (h : (string r rest).item = .fault cause) :
    (string r (rest ++ ss)).item = .fault cause := by
  simp only [string] at h ⊢
  have hmark : '"' ∈ markChars := by decide
  have hquotes : ∀ s ∈ ss, (!isQuote s) = true := by
    intro s hs
    rw [Bool.not_eq_true', isQuote, beq_eq_false_iff_ne]
    intro heq
    exact (stop_of_isSpace (hss s hs)).2.2 (heq ▸ hmark)
  have hnone : ss.dropWhile (!isQuote ·) = [] := List.dropWhile_eq_nil_iff.mpr hquotes
  cases hdrop : rest.dropWhile (!isQuote ·) with
  | cons close after =>
      rw [hdrop] at h
      cases h
  | nil =>
      rw [hdrop] at h
      rw [List.dropWhile_append, hdrop, hnone]
      exact h

/-- White space behind a text does not mend a fault. -/
theorem step_fault (h : (step r rest).item = .fault cause) :
    (step r (rest ++ ss)).item = .fault cause := by
  have hpair : ∀ both alone, (pair '=' both alone r rest).item ≠ .fault cause := by
    intro both alone
    unfold pair
    grind
  have hslash : (slash r rest).item ≠ .fault cause := by
    unfold slash
    grind
  have hnumber : (number r rest).item ≠ .fault cause := by
    unfold number
    grind
  have hmark : ∀ c ∈ markChars, r.char = c → r.char ∈ markChars := by
    intro c hc hr
    rwa [hr]
  unfold step at h ⊢
  split at h <;>
    first
      | cases h
      | exact absurd h (hpair _ _)
      | exact absurd h hslash
      | exact string_fault hss h
      | exact doubled_fault hss (hmark '&' (by decide) (by assumption)) h
      | exact doubled_fault hss (hmark '|' (by decide) (by assumption)) h
      | skip
  split at h
  · exact absurd h hnumber
  · split at h
    · cases h
    · next hdigit hstart =>
        rw [if_neg hdigit, if_neg hstart]
        exact h

/-- A text without faults has none without the white space at its end. -/
theorem faults_of_append_space {done : Result} {line : Nat} {rs : List Rune}
    (hclean : (read done line (rs ++ ss)).faults = []) : (read done line rs).faults = [] := by
  fun_induction read done line rs with
  | case1 done line => exact faults_of_read hclean
  | case2 done line r rest ih =>
      have hwhole := step_clean hclean
      have hstep : ∀ cause, (step r rest).item ≠ .fault cause :=
        fun cause hfault => hwhole cause (step_fault hss hfault)
      rw [List.cons_append, read_cons] at hclean
      cases hopen : (step r rest).isOpen with
      | true =>
          have hself : step r rest = ⟨.skipped, r :: rest, []⟩ := by
            simpa using step_open hopen []
          have hdone := faults_of_read hclean
          rw [step_open hopen] at hdone
          rw [hself, read_nil]
          exact hdone
      | false =>
          refine ih ?_
          cases ss with
          | nil => simpa using hclean
          | cons a ss =>
              have ha := stopper_of_isSpace (hss a List.mem_cons_self)
              rw [step_before ha r rest ss hstep (.inr hopen)] at hclean
              exact hclean

end Space

/-- A text without faults between white space is read as it is read alone, on later lines. -/
theorem read_between {done : Result} {line : Nat} {before rs after : List Rune}
    (hbefore : ∀ r ∈ before, isSpace r.char = true) (hafter : ∀ r ∈ after, isSpace r.char = true)
    (hclean : (read done line (before ++ (rs ++ after))).faults = []) :
    read done line (before ++ (rs ++ after)) = read done (line + feeds before) rs := by
  have hread := read_space hbefore hclean
  rw [hread] at hclean ⊢
  have hrs := faults_of_append_space hafter hclean
  cases after with
  | nil => rw [List.append_nil]
  | cons a after =>
      have hleft : ∀ r ∈ left rs (a :: after), isSpace r.char = true := by
        unfold left
        split
        · exact fun r hr => hafter r (List.dropWhile_subset _ hr)
        · exact hafter
      have hread := read_append_left hrs (stopper_of_isSpace (hafter a List.mem_cons_self)) after
      rw [← List.append_nil (left _ _)] at hread
      rw [hread] at hclean ⊢
      rw [read_space hleft hclean, read_nil]

/-- A text that is trimmed is read as it was, on later lines. -/
theorem read_trimRunes {rs : List Rune} (hclean : (read ⟨[], []⟩ 1 rs).faults = []) :
    read ⟨[], []⟩ 1 rs =
      read ⟨[], []⟩ (1 + feeds (rs.takeWhile (isSpace ·.char))) (Bytes.trimRunes rs) := by
  obtain ⟨after, hrs, hafter⟩ := Bytes.trimRunes_between rs
  have hbefore : ∀ r ∈ rs.takeWhile (isSpace ·.char), isSpace r.char = true :=
    fun r hr => List.mem_takeWhile_imp (p := fun r : Rune => isSpace r.char) hr
  rw [hrs] at hclean
  conv_lhs => rw [hrs]
  exact read_between hbefore hafter hclean

/-! ## The last item -/

/-- A reading ends with a step that takes all that is left. -/
theorem exists_last_step (done : Result) (line : Nat) {rs : List Rune} (h : rs ≠ []) :
    ∃ front r rest, rs = front ++ r :: rest ∧ (step r rest).rest = [] ∧
      endsInComment rs = (step r rest).isComment ∧
        ∃ done' : Result, read done line rs = done'.add (step r rest) (line + feeds rs) := by
  fun_induction read done line rs with
  | case1 done line => exact absurd rfl h
  | case2 done line r rest ih =>
      rw [endsInComment_cons, feeds_cons r rest, Step.isOpen]
      by_cases hlast : (step r rest).rest = []
      · refine ⟨[], r, rest, rfl, hlast, ?_, done, ?_⟩
        · simp [hlast, endsInComment]
        · rw [hlast, read_nil]
          rfl
      · obtain ⟨front, s, more, hrest, hstep, hcomment, done', hread⟩ := ih hlast
        refine ⟨(step r rest).taken ++ front, s, more, ?_, hstep, ?_, done', ?_⟩
        · rw [List.append_assoc, ← hrest, step_spelling]
        · simp [hlast, hcomment]
        · rw [hread, Nat.add_assoc]

/-- A text without faults that ends neither in white space nor in a comment ends in a token. -/
theorem ends_in_token {line : Nat} {text : Bytes} (hsome : text ≠ [])
    (hclean : (reading line text).faults = [])
    (hspace : ∀ r ∈ text.runes.getLast?, isSpace r.char = false)
    (hcomment : endsInComment text.runes = false) :
    ∃ t front, (reading line text).tokens.head? = some t ∧
      Lexeme t.kind t.lexeme t.literal ∧ text = front ++ t.lexeme := by
  have hrunes : text.runes ≠ [] := fun hnone => hsome (eq_ofRunes hnone)
  obtain ⟨front, r, rest, hsplit, hlast, hkind, done', hread⟩ :=
    exists_last_step ⟨[], []⟩ line hrunes
  obtain ⟨before, taken, rfl, -, htaken⟩ := Bytes.runes_eq_append hsplit
  have hall : (step r rest).taken = taken.runes := by
    rw [htaken, ← step_spelling r rest, hlast, List.append_nil]
  have hfound := step_finds r rest taken [] hall.symm (by rw [hlast, Bytes.runes_nil])
  rw [hcomment] at hkind
  rw [reading, hread] at hclean ⊢
  unfold Result.add Step.isComment at *
  rw [hall] at hclean hkind ⊢
  generalize (step r rest).item = item at *
  cases hfound with
  | token hlexeme =>
      refine ⟨_, before, rfl, ?_, ?_⟩
      · simpa [Bytes.ofRunes_runes] using hlexeme
      · simp [Bytes.ofRunes_runes]
  | @blank b _ hblank =>
      rw [Bytes.runes_ascii_cons (blank_ascii hblank), Bytes.runes_nil] at htaken
      rw [hsplit, ← htaken, List.getLast?_concat] at hspace
      have hno := hspace _ rfl
      rw [blank_isSpace hblank] at hno
      cases hno
  | @comment text _ htext hrest =>
      have hslashes : Bytes.runes (utf8 "//" ++ text) =
          [Rune.ascii 0x2F, Rune.ascii 0x2F] ++ text.runes :=
        Bytes.runes_ascii_append [0x2F, 0x2F] (by simp) text
      rw [hslashes] at hkind
      simp at hkind
  | rejected hrune hcause => cases hclean
  | unterminated hinside => cases hclean

end Scan

open Scan

/-- The bytes that end a line at the prompt, with their tokens. -/
def TokenKind.closers : List (TokenKind × UInt8) := [(.semicolon, 0x3B), (.rightBrace, 0x7D)]

/-- A lexeme ends with the byte of a mark that stands in no other lexeme only if it is that mark. -/
theorem Lexeme.getLast?_closer {kind : TokenKind} {text : Bytes} {v : Value}
    (h : Lexeme kind text v) : ∀ entry ∈ TokenKind.closers,
      text.getLast? = some entry.2 ↔ kind = entry.1 := by
  have hmarks : ∀ mark ∈ TokenKind.marks, ∀ entry ∈ TokenKind.closers,
      mark.2.getLast? = some entry.2 ↔ mark.1 = entry.1 := by decide
  have hkinds : ∀ entry ∈ TokenKind.closers, TokenKind.number ≠ entry.1 ∧
      TokenKind.string ≠ entry.1 ∧ TokenKind.identifier ≠ entry.1 ∧
        (∀ word ∈ TokenKind.keywords, word.2 ≠ entry.1) := by decide
  have hbytes : ∀ entry ∈ TokenKind.closers, Decimal.isPlain entry.2 = false ∧
      entry.2 ≠ Bytes.quote ∧ entry.2 < 0x80 ∧
        continuesWord (Rune.ascii entry.2).char = false := by decide
  intro entry hentry
  obtain ⟨hnumber, hstring, hidentifier, hkeyword⟩ := hkinds entry hentry
  obtain ⟨hdigit, hquote, hascii, hword⟩ := hbytes entry hentry
  cases h with
  | mark hmark => exact hmarks _ hmark entry hentry
  | number hplain _ =>
      refine iff_of_false (fun hlast => ?_) hnumber
      rw [hplain.bytes _ (List.mem_of_getLast? hlast)] at hdigit
      cases hdigit
  | string _ =>
      refine iff_of_false (fun hlast => ?_) hstring
      rw [List.getLast?_concat] at hlast
      exact hquote (Option.some.inj hlast).symm
  | @word _ r rs hrunes hstart hmore =>
      refine iff_of_false (fun hlast => ?_) ?_
      · have hmem := (Bytes.mem_runes_ascii hascii).mpr (List.mem_of_getLast? hlast)
        rw [hrunes] at hmem
        have hcontinues : continuesWord (Rune.ascii entry.2).char = true := by
          rcases List.mem_cons.mp hmem with heq | hmem
          · rw [heq, continuesWord, hstart, Bool.true_or]
          · exact hmore _ hmem
        rw [hword] at hcontinues
        cases hcontinues
      · rcases ofWord_cases text with hkind | hkind
        · rwa [hkind]
        · exact hkeyword _ hkind

end Scribe
