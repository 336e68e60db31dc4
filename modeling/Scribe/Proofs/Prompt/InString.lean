import Scribe.Prompt.Word
import Scribe.Proofs.Token.Reading

/-!
# Inside a string

The prompt tells by the number of quotes in front of a place whether the place is within a string.
A scan takes quotes in twos, except for a string that does not end, which takes one and all that
follows, and for a comment, which takes any number. So the quotes outside of comments are odd
exactly if the scan reports a string that does not end, and the prompt is right about a place
exactly if the comments in front of it hold an even number of quotes.
-/

namespace Scribe

namespace LexicalCause

theorem message_eq_unterminated_iff (cause : LexicalCause) :
    cause.message = utf8 "Unterminated string." ↔ cause = .unterminatedString := by
  constructor
  · intro h
    cases cause with
    | unexpectedCharacter c =>
        have hthird := congrArg (·[2]?) h
        rw [message, List.append_assoc] at hthird
        rw [List.getElem?_append_left (by decide)] at hthird
        exact absurd hthird (by decide)
    | notDoubled c =>
        have hfirst := congrArg (·[0]?) h
        simp only [message, List.append_assoc] at hfirst
        rw [List.getElem?_append_left (by decide)] at hfirst
        exact absurd hfirst (by decide)
    | unterminatedString => rfl
  · rintro rfl
    rfl

end LexicalCause

namespace Scan

/-! ## Quotes of one step -/

def quotes (rs : List Rune) : Nat := rs.countP isQuote

theorem quotes_append (rs ss : List Rune) : quotes (rs ++ ss) = quotes rs + quotes ss :=
  List.countP_append

theorem quotes_cons_of_quote {r : Rune} (h : isQuote r = true) (rs : List Rune) :
    quotes (r :: rs) = quotes rs + 1 := List.countP_cons_of_pos h

theorem quotes_cons_of_other {r : Rune} (h : isQuote r = false) (rs : List Rune) :
    quotes (r :: rs) = quotes rs := List.countP_cons_of_neg (by simp [h])

theorem quotes_eq_zero {rs : List Rune} (h : ∀ r ∈ rs, isQuote r = false) : quotes rs = 0 := by
  rw [quotes, List.countP_eq_zero]
  intro r hr
  simp [h r hr]

theorem quotes_takeWhile {p : Char → Bool} (hp : p '"' = false) (rs : List Rune) :
    quotes (rs.takeWhile (p ·.char)) = 0 := by
  apply quotes_eq_zero
  intro r hr
  have hpass : p r.char = true := List.mem_takeWhile_imp (p := fun r : Rune => p r.char) hr
  rw [isQuote, beq_eq_false_iff_ne]
  intro hquote
  rw [hquote, hp] at hpass
  cases hpass

/-- A step takes quotes in twos, or the one of a string that does not end, and with it all that
follows. A comment takes what stands in it. -/
inductive Step.Takes (s : Step) : Prop where
  | comment (h : s.isComment = true)
  | closed (hitem : s.item ≠ .fault .unterminatedString) (h : quotes s.taken % 2 = 0)
  | unclosed (hitem : s.item = .fault .unterminatedString) (h : quotes s.taken = 1)
      (hplain : s.isComment = false) (hrest : s.rest = [])

section Step

variable {r : Rune} (rest : List Rune)

theorem string_takes (hr : isQuote r = true) : (string r rest).Takes := by
  have hinside : quotes (rest.takeWhile (!isQuote ·)) = 0 :=
    quotes_takeWhile (p := fun c => !(c == '"')) (by decide) rest
  have hopen : quotes (r :: rest.takeWhile (!isQuote ·)) = 1 := by
    rw [quotes_cons_of_quote hr, hinside]
  have hhead := List.head?_dropWhile_not (!isQuote ·) rest
  simp only [string]
  split
  · next close after hdrop =>
      rw [hdrop] at hhead
      have hclose : isQuote close = true := by simpa using hhead
      refine .closed (by simp) ?_
      rw [quotes_append, hopen, quotes_cons_of_quote hclose]
      rfl
  · exact .unclosed rfl hopen rfl rfl

variable (hr : isQuote r = false)
include hr

theorem alone_takes {item : Item} (hitem : item ≠ .fault .unterminatedString) :
    Step.Takes ⟨item, [r], rest⟩ :=
  .closed hitem (by rw [quotes_eq_zero (by simpa using hr)])

theorem pair_takes {second : Char} (hsecond : second ≠ '"') (both alone : TokenKind) :
    (pair second both alone r rest).Takes := by
  unfold pair
  split
  · next s more =>
      split
      · next hnext =>
          have hs : isQuote s = false := by
            rw [isQuote, beq_iff_eq.mp hnext]
            exact beq_eq_false_iff_ne.mpr hsecond
          exact .closed (by simp) (by rw [quotes_eq_zero (by simp [hr, hs])])
      · exact alone_takes _ hr (by simp)
  · exact alone_takes _ hr (by simp)

theorem doubled_takes (kind : TokenKind) : (doubled kind r rest).Takes := by
  unfold doubled
  split
  · next s more =>
      split
      · next hnext =>
          have hs : isQuote s = false := by rwa [isQuote, beq_iff_eq.mp hnext]
          exact .closed (by simp) (by rw [quotes_eq_zero (by simp [hr, hs])])
      · exact alone_takes _ hr (by simp)
  · exact alone_takes _ hr (by simp)

theorem slash_takes : (slash r rest).Takes := by
  unfold slash
  split
  · split
    · exact .comment rfl
    · exact alone_takes _ hr (by simp)
  · exact alone_takes _ hr (by simp)

theorem number_takes : (number r rest).Takes := by
  have hdigits := quotes_takeWhile (p := Char.isDigit) (by decide)
  have hfront : quotes (r :: rest.takeWhile (·.char.isDigit)) = 0 := by
    rw [quotes_cons_of_other hr, hdigits]
  simp only [number]
  split
  · next point d more _ =>
      split
      · next hpoint =>
          rw [Bool.and_eq_true, beq_iff_eq] at hpoint
          have hmark : isQuote point = false := by rw [isQuote, hpoint.1]; decide
          have hplaces : quotes (point :: (d :: more).takeWhile (·.char.isDigit)) = 0 := by
            rw [quotes_cons_of_other hmark, hdigits]
          exact .closed (by simp) (by rw [quotes_append, hfront, hplaces])
      · exact .closed (by simp) (by rw [hfront])
  · exact .closed (by simp) (by rw [hfront])

theorem word_takes : (word r rest).Takes := by
  refine .closed (by simp [word]) ?_
  have hmore := quotes_takeWhile (p := continuesWord) (by decide) rest
  rw [word, quotes_cons_of_other hr, hmore]

end Step

theorem step_takes (r : Rune) (rest : List Rune) : (step r rest).Takes := by
  have hother : ∀ {c : Char}, r.char = c → c ≠ '"' → isQuote r = false := by
    rintro c rfl hc
    exact beq_eq_false_iff_ne.mpr hc
  unfold step
  split
  case h_24 h => exact string_takes rest (beq_iff_eq.mpr h)
  case h_25 hquote =>
    have hr : isQuote r = false := beq_eq_false_iff_ne.mpr hquote
    split
    · exact number_takes rest hr
    · split
      · exact word_takes rest hr
      · exact alone_takes rest hr (by simp)
  all_goals
    next h =>
      have hr := hother h (by decide)
      first
        | exact alone_takes rest hr (by simp)
        | exact pair_takes rest hr (by decide) _ _
        | exact doubled_takes rest hr _
        | exact slash_takes rest hr

/-! ## Quotes of a text -/

def quotesOf (chosen : Step → Bool) : List Rune → Nat
  | [] => 0
  | r :: rest =>
      (if chosen (step r rest) then quotes (step r rest).taken else 0) +
        quotesOf chosen (step r rest).rest
termination_by rs => rs.length
decreasing_by exact Nat.lt_succ_of_le (step_rest_length r rest)

def commentQuotes (rs : List Rune) : Nat := quotesOf Step.isComment rs

def codeQuotes (rs : List Rune) : Nat := quotesOf (!·.isComment) rs

/-- A comment stands in the text, outside of strings. -/
def meetsComment : List Rune → Bool
  | [] => false
  | r :: rest => (step r rest).isComment || meetsComment (step r rest).rest
termination_by rs => rs.length
decreasing_by exact Nat.lt_succ_of_le (step_rest_length r rest)

theorem quotesOf_add (chosen : Step → Bool) (rs : List Rune) :
    quotesOf chosen rs + quotesOf (!chosen ·) rs = quotes rs := by
  fun_induction quotesOf chosen rs with
  | case1 => rw [quotesOf]; rfl
  | case2 r rest ih =>
      have hparts :
          quotes (r :: rest) = quotes (step r rest).taken + quotes (step r rest).rest := by
        rw [← quotes_append, step_spelling]
      rw [quotesOf, hparts, ← ih]
      cases chosen (step r rest) <;> simp <;> omega

theorem commentQuotes_eq_zero {rs : List Rune} (h : meetsComment rs = false) :
    commentQuotes rs = 0 := by
  unfold commentQuotes
  fun_induction meetsComment rs with
  | case1 => rw [quotesOf]
  | case2 r rest ih =>
      rw [Bool.or_eq_false_iff] at h
      rw [quotesOf, h.1, ih h.2]
      rfl

def Result.Unterminated (result : Result) : Prop :=
  ∃ d ∈ result.faults, d.message = utf8 "Unterminated string."

theorem add_unterminated_iff (done : Result) (s : Step) (line : Nat) :
    (done.add s line).Unterminated ↔
      s.item = .fault .unterminatedString ∨ done.Unterminated := by
  unfold Result.add Result.Unterminated
  split
  · next hitem => simp [hitem]
  · next hitem => simp [hitem]
  · next cause hitem =>
      have hmessage : (Diagnostic.lexical line cause).message = cause.message := rfl
      simp only [List.exists_mem_cons_iff, hmessage, cause.message_eq_unterminated_iff, hitem,
        Item.fault.injEq]

/-- What is read reports a string that does not end exactly if the quotes outside of comments are
odd. -/
theorem read_unterminated_iff (done : Result) (line : Nat) (rs : List Rune) :
    (read done line rs).Unterminated ↔ codeQuotes rs % 2 = 1 ∨ done.Unterminated := by
  unfold codeQuotes
  fun_induction read done line rs with
  | case1 done line =>
      rw [quotesOf]
      simp
  | case2 done line r rest ih =>
      rw [ih, add_unterminated_iff, quotesOf]
      cases step_takes r rest with
      | comment h =>
          have hitem : (step r rest).item ≠ .fault .unterminatedString := by
            intro hitem
            rw [Step.isComment, hitem] at h
            cases h
          simp [h, hitem]
      | closed hitem h =>
          have heven : (quotes (step r rest).taken +
              quotesOf (!·.isComment) (step r rest).rest) % 2 =
                quotesOf (!·.isComment) (step r rest).rest % 2 := by
            omega
          cases (step r rest).isComment <;> simp [hitem, heven]
      | unclosed hitem h hplain hrest =>
          rw [hrest, quotesOf]
          simp [hitem, h, hplain]

end Scan

open Scan

theorem scan_unterminated_iff (text : Bytes) :
    (∃ d ∈ (scan text).faults, d.message = utf8 "Unterminated string.") ↔
      codeQuotes text.runes % 2 = 1 := by
  have hread := read_unterminated_iff ⟨[], []⟩ 1 text.runes
  simpa [Result.Unterminated, scan_eq, reading, Result.closed] using hread

/-- The prompt and the scan agree about a place exactly if the comments in front of it hold an even
number of quotes. -/
theorem inString_agrees_iff (text : Bytes) (offset : Nat) :
    (inString text offset = true ↔
      ∃ d ∈ (scan (text.take offset)).faults, d.message = utf8 "Unterminated string.") ↔
      commentQuotes (Bytes.runes (text.take offset)) % 2 = 0 := by
  have hcount : quotes (Bytes.runes (text.take offset)) = (text.take offset).count Bytes.quote :=
    Bytes.countP_runes (b := Bytes.quote) (by decide) (text.take offset)
  have hparts := quotesOf_add Step.isComment (Bytes.runes (text.take offset))
  rw [hcount, ← commentQuotes, ← codeQuotes] at hparts
  rw [scan_unterminated_iff, inString, beq_iff_eq, ← hparts]
  omega

/-- In a comment the prompt sees a string where the scan sees none. -/
example : inString (utf8 "nil; // \"") 9 = true ∧ (scan (utf8 "nil; // \"")).faults = [] := by
  constructor <;> cbv

/-- Where no comment stands in front of a place, the prompt takes it to be within a string exactly
if a scan up to there reports a string that does not end. -/
theorem inString_iff_unterminated {text : Bytes} {offset : Nat}
    (h : meetsComment (Bytes.runes (text.take offset)) = false) :
    inString text offset = true ↔
      ∃ d ∈ (scan (text.take offset)).faults, d.message = utf8 "Unterminated string." := by
  rw [inString_agrees_iff, commentQuotes_eq_zero h]

/-- A string that holds two slashes stands in front of the place, and a byte that is malformed. -/
theorem slashes_quoted_inString :
    let text := utf8 "\"// ß\" + \"" ++ [0xC3] ++ utf8 "wort\";"
    meetsComment (Bytes.runes (text.take 13)) = false ∧ inString text 13 = true ∧
      ∃ d ∈ (scan (text.take 13)).faults, d.message = utf8 "Unterminated string." := by
  intro text
  have hplain : meetsComment (Bytes.runes (text.take 13)) = false := by cbv
  have hinside : inString text 13 = true := by cbv
  have hagree := @inString_iff_unterminated text 13 hplain
  exact ⟨hplain, hinside, hagree.mp hinside⟩

end Scribe
