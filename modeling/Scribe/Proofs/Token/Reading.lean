import Scribe.Proofs.Text.Runes
import Scribe.Token.Scan

/-!
# Scanning up to a line feed

No item but a string reaches over a line feed, and a string that does not end in its text is a
fault. A text without faults is therefore read up to a line feed behind it as if it ended there,
and what follows the line feed is read as a text of its own, on later lines. Other runes that no
word, number or operator goes on with end all items but strings and comments.
-/

namespace Scribe

namespace Scan

/-! ## Reading without an end -/

/-- What stands in `done` when all runes are read, last first. -/
def read (done : Result) (line : Nat) : List Rune → Result
  | [] => done
  | r :: rest =>
      read (done.add (step r rest) (line + feeds (step r rest).taken))
        (line + feeds (step r rest).taken) (step r rest).rest
termination_by rs => rs.length
decreasing_by exact Nat.lt_succ_of_le (step_rest_length r rest)

/-- The result of a text that ends on `line`. -/
def Result.closed (done : Result) (line : Nat) : Result :=
  ⟨done.tokens.reverse ++ [Token.endOfText line], done.faults.reverse⟩

/-- Items in front of others. -/
def Result.behind (new done : Result) : Result :=
  ⟨new.tokens ++ done.tokens, new.faults ++ done.faults⟩

theorem read_nil (done : Result) (line : Nat) : read done line [] = done := by rw [read]

theorem read_cons (done : Result) (line : Nat) (r : Rune) (rest : List Rune) :
    read done line (r :: rest) =
      read (done.add (step r rest) (line + feeds (step r rest).taken))
        (line + feeds (step r rest).taken) (step r rest).rest := by
  rw [read]

theorem feeds_cons (r : Rune) (rest : List Rune) :
    feeds (r :: rest) = feeds (step r rest).taken + feeds (step r rest).rest := by
  rw [← step_spelling r rest, feeds, List.countP_append]
  rfl

theorem run_eq (done : Result) (line : Nat) (rs : List Rune) :
    run done line rs = (read done line rs).closed (line + feeds rs) := by
  fun_induction read done line rs with
  | case1 done line => simp [run, Result.closed, feeds]
  | case2 done line r rest ih => rw [run, ih, feeds_cons, Nat.add_assoc]

theorem add_behind (new done : Result) (s : Step) (line : Nat) :
    (new.behind done).add s line = (new.add s line).behind done := by
  unfold Result.add
  split <;> rfl

theorem read_behind (new done : Result) (line : Nat) (rs : List Rune) :
    read (new.behind done) line rs = (read new line rs).behind done := by
  fun_induction read new line rs with
  | case1 new line => rw [read]
  | case2 new line r rest ih => rw [read_cons, add_behind, ih]

theorem read_eq_behind (done : Result) (line : Nat) (rs : List Rune) :
    read done line rs = (read ⟨[], []⟩ line rs).behind done :=
  read_behind ⟨[], []⟩ done line rs

theorem ofWord_cases (word : Bytes) : TokenKind.ofWord word = .identifier ∨
    (word, TokenKind.ofWord word) ∈ TokenKind.keywords := by
  rw [TokenKind.ofWord]
  cases hfound : TokenKind.keywords.lookup word with
  | none => exact .inl rfl
  | some kind =>
      obtain ⟨before, behind, heq, -⟩ := List.lookup_eq_some_iff.mp hfound
      exact .inr (by simp [heq])

theorem ofWord_ne_eof (word : Bytes) : TokenKind.ofWord word ≠ .eof := by
  have hkeywords : ∀ entry ∈ TokenKind.keywords, entry.2 ≠ .eof := by decide
  rcases ofWord_cases word with h | h
  · rw [h]
    decide
  · exact hkeywords _ h

theorem step_item_ne_eof (r : Rune) (rest : List Rune) (v : Value) :
    (step r rest).item ≠ .token .eof v := by
  unfold step single pair doubled slash string number word
  grind [ofWord_ne_eof]

/-! ## In front of a rune that ends an item -/

def lineFeed : Rune := Rune.ascii Bytes.lineFeed

section Stop

variable {p : Rune → Bool} {a : Rune} (hp : p a = false) (rs ss : List Rune)
include hp

theorem takeWhile_stop : (rs ++ a :: ss).takeWhile p = rs.takeWhile p := by
  induction rs with
  | nil => simp [hp]
  | cons r rs ih => simp only [List.cons_append, List.takeWhile_cons, ih]

theorem dropWhile_stop : (rs ++ a :: ss).dropWhile p = rs.dropWhile p ++ a :: ss := by
  induction rs with
  | nil => simp [hp]
  | cons r rs ih =>
      simp only [List.cons_append, List.dropWhile_cons, ih]
      split <;> rfl

end Stop

section Within

variable {p : Rune → Bool} {rs : List Rune} (h : rs.dropWhile p ≠ []) (ss : List Rune)
include h

theorem takeWhile_within : (rs ++ ss).takeWhile p = rs.takeWhile p := by
  rw [List.takeWhile_append, if_neg]
  intro hall
  have hsplit := congrArg List.length (List.takeWhile_append_dropWhile (p := p) (l := rs))
  have hleft := List.length_pos_iff.mpr h
  rw [List.length_append] at hsplit
  omega

theorem dropWhile_within : (rs ++ ss).dropWhile p = rs.dropWhile p ++ ss := by
  rw [List.dropWhile_append, if_neg (by simpa using h)]

end Within

/-- The same step in a longer text. -/
def Step.before (s : Step) (rs : List Rune) : Step := { s with rest := s.rest ++ rs }

/-- What is skipped is a blank or a comment, and a comment has two slashes at least. -/
def Step.isComment (s : Step) : Bool :=
  match s.item with
  | .skipped => decide (1 < s.taken.length)
  | _ => false

/-- A comment that goes on behind the text. -/
def Step.isOpen (s : Step) : Bool := s.isComment && s.rest.isEmpty

/-- No word, number or operator goes on with the rune. -/
structure Stopper (a : Rune) : Prop where
  equals : (a.char == '=') = false
  slash : (a.char == '/') = false
  point : (a.char == '.') = false
  digit : a.char.isDigit = false
  word : continuesWord a.char = false

theorem stopper_lineFeed : Stopper lineFeed where
  equals := by decide
  slash := by decide
  point := by decide
  digit := by decide
  word := by decide

section Before

variable {a : Rune} (ha : Stopper a) (r : Rune) (rest ss : List Rune)

/-- A string that ends in its text does not see what follows. -/
theorem string_before (hclean : ∀ cause, (string r rest).item ≠ .fault cause) :
    string r (rest ++ ss) = (string r rest).before ss := by
  simp only [string] at hclean ⊢
  have hleft : rest.dropWhile (!isQuote ·) ≠ [] := by
    intro hnone
    rw [hnone] at hclean
    exact hclean _ rfl
  rw [takeWhile_within hleft, dropWhile_within hleft]
  cases hdrop : rest.dropWhile (!isQuote ·) with
  | nil => exact absurd hdrop hleft
  | cons close after => rfl

theorem doubled_before {kind : TokenKind}
    (hclean : ∀ cause, (doubled kind r rest).item ≠ .fault cause) :
    doubled kind r (rest ++ ss) = (doubled kind r rest).before ss := by
  cases rest with
  | nil => exact absurd rfl (hclean _)
  | cons s rest =>
      simp only [List.cons_append, doubled]
      split <;> rfl

include ha

theorem pair_before (both alone : TokenKind) :
    pair '=' both alone r (rest ++ a :: ss) = (pair '=' both alone r rest).before (a :: ss) := by
  cases rest with
  | nil => simp [pair, Step.before, ha.equals]
  | cons s rest =>
      simp only [List.cons_append, pair]
      split <;> rfl

/-- A comment ends at a line feed, in its text or behind it. -/
theorem slash_before (hopen : isFeed a = true ∨ (slash r rest).isOpen = false) :
    slash r (rest ++ a :: ss) = (slash r rest).before (a :: ss) := by
  cases rest with
  | nil => simp [slash, Step.before, ha.slash]
  | cons s rest =>
      simp only [List.cons_append, slash] at hopen ⊢
      split
      · next hslash =>
          rw [if_pos hslash] at hopen
          rcases hopen with hfeed | hopen
          · have hstop : (!isFeed a) = false := by rw [hfeed]; rfl
            rw [takeWhile_stop hstop, dropWhile_stop hstop]
            rfl
          · -- The comment ends in its text: a line feed is left there.
            have hleft : rest.dropWhile (!isFeed ·) ≠ [] := by
              intro hnone
              simp [Step.isOpen, Step.isComment, hnone] at hopen
            rw [takeWhile_within hleft, dropWhile_within hleft]
            rfl
      · rfl

theorem number_before :
    number r (rest ++ a :: ss) = (number r rest).before (a :: ss) := by
  have htake := takeWhile_stop (p := (·.char.isDigit)) ha.digit
  have hdrop := dropWhile_stop (p := (·.char.isDigit)) ha.digit
  simp only [number, htake, hdrop]
  generalize rest.dropWhile (·.char.isDigit) = after
  rcases after with _ | ⟨point, _ | ⟨d, more⟩⟩
  · cases ss with
    | nil => rfl
    | cons s ss => simp [Step.before, ha.point]
  · simp only [List.cons_append, List.nil_append, ha.digit, Bool.and_false]
    rfl
  · have htake' := htake (d :: more) ss
    have hdrop' := hdrop (d :: more) ss
    simp only [List.cons_append] at htake' hdrop' ⊢
    split
    · rw [htake', hdrop']
      rfl
    · rfl

theorem word_before :
    word r (rest ++ a :: ss) = (word r rest).before (a :: ss) := by
  have htake := takeWhile_stop (p := (continuesWord ·.char)) ha.word rest ss
  have hdrop := dropWhile_stop (p := (continuesWord ·.char)) ha.word rest ss
  simp only [word, htake, hdrop]
  rfl

/-- A step without a fault does not see what stands behind its text, unless it takes a comment that
goes on there. -/
theorem step_before (hclean : ∀ cause, (step r rest).item ≠ .fault cause)
    (hopen : isFeed a = true ∨ (step r rest).isOpen = false) :
    step r (rest ++ a :: ss) = (step r rest).before (a :: ss) := by
  have hslash : r.char = '/' → isFeed a = true ∨ (slash r rest).isOpen = false := by
    intro hr
    simpa only [step, hr] using hopen
  unfold step at hclean ⊢
  split at hclean <;>
    first
      | rfl
      | exact pair_before ha r rest ss _ _
      | exact doubled_before r rest _ hclean
      | exact slash_before ha r rest ss (hslash (by assumption))
      | exact string_before r rest _ hclean
      | skip
  split
  · exact number_before ha r rest ss
  · split
    · exact word_before ha r rest ss
    · rfl

end Before

/-! ## Texts one behind the other -/

theorem faults_of_read {done : Result} {line : Nat} {rs : List Rune}
    (h : (read done line rs).faults = []) : done.faults = [] := by
  rw [read_eq_behind] at h
  exact (List.append_eq_nil_iff.mp h).2

theorem read_append {done : Result} {line : Nat} {rs : List Rune}
    (hclean : (read done line rs).faults = []) (ss : List Rune) :
    read done line (rs ++ lineFeed :: ss) = read (read done line rs) (line + feeds rs + 1) ss := by
  fun_induction read done line rs with
  | case1 done line => rw [List.nil_append, read_cons]; rfl
  | case2 done line r rest ih =>
      have hstep : ∀ cause, (step r rest).item ≠ .fault cause := by
        intro cause hfault
        have hdone := faults_of_read hclean
        simp only [Result.add, hfault] at hdone
        cases hdone
      rw [List.cons_append, read_cons, step_before stopper_lineFeed r rest ss hstep (.inl rfl),
        feeds_cons r rest, ← Nat.add_assoc]
      exact ih hclean

theorem read_isEnd {done : Result} (hdone : ∀ t ∈ done.tokens, t.isEnd = false) (line : Nat)
    (rs : List Rune) : ∀ t ∈ (read done line rs).tokens, t.isEnd = false := by
  fun_induction read done line rs with
  | case1 done line => exact hdone
  | case2 done line r rest ih =>
      refine ih ?_
      unfold Result.add
      split
      · next kind v hitem =>
          intro t ht
          rcases List.mem_cons.mp ht with rfl | ht
          · have hkind : kind ≠ .eof := fun h => step_item_ne_eof r rest v (h ▸ hitem)
            simpa [Token.isEnd] using hkind
          · exact hdone t ht
      · exact hdone
      · exact hdone

theorem feeds_runes (text : Bytes) : feeds text.runes = text.count Bytes.lineFeed :=
  Bytes.countP_runes (b := Bytes.lineFeed) (by decide) text

/-- The items of a text whose first line is `line`. -/
def reading (line : Nat) (text : Bytes) : Result := read ⟨[], []⟩ line text.runes

theorem reading_isEnd (line : Nat) (text : Bytes) :
    ∀ t ∈ (reading line text).tokens, t.isEnd = false :=
  read_isEnd (fun _ ht => absurd ht List.not_mem_nil) line text.runes

end Scan

open Scan

theorem scan_eq (text : Bytes) :
    scan text = (reading 1 text).closed (1 + text.count Bytes.lineFeed) := by
  rw [scan, run_eq, feeds_runes]
  rfl

theorem reading_append {first : Bytes} (hclean : (scan first).faults = []) (second : Bytes) :
    reading 1 (first ++ Bytes.lineFeed :: second) =
      (reading (1 + first.count Bytes.lineFeed + 1) second).behind (reading 1 first) := by
  have hread : (read ⟨[], []⟩ 1 first.runes).faults = [] := by
    rw [scan_eq] at hclean
    exact List.reverse_eq_nil_iff.mp hclean
  have hrunes : Bytes.runes (first ++ Bytes.lineFeed :: second) =
      first.runes ++ lineFeed :: second.runes := by
    rw [Bytes.runes_append (by decide), Bytes.runes_ascii_cons (by decide)]
    rfl
  rw [reading, hrunes, read_append hread, read_eq_behind, feeds_runes]
  rfl

end Scribe
