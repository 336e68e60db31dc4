import Scribe.Proofs.Token.Lexeme

/-!
# Every byte accounted for

A scan goes through a text from its first byte to its last. At each place stands the token it gives
next, or something it passes over, or what the next diagnostic is about; nothing is left out and
nothing is counted twice.
-/

namespace Scribe

def Bytes.slice (text : Bytes) (start stop : Nat) : Bytes := (text.take stop).drop start

namespace Scan

def lineAt (source : Bytes) (place : Nat) : Nat := 1 + (source.take place).count Bytes.lineFeed

/-- From a place on, the source consists of the tokens and of the causes of the diagnostics, each in
its order, with white space and comments between them. -/
inductive Accounted (source : Bytes) : Nat → List Token → List Diagnostic → Prop where
  | finish :
      Accounted source source.length [Token.endOfText (lineAt source source.length)] []
  | token {start stop : Nat} {kind : TokenKind} {v : Value} {ts : List Token}
      {ds : List Diagnostic} (hsome : start < stop) (hwithin : stop ≤ source.length)
      (hkind : kind ≠ .eof) (h : Lexeme kind (source.slice start stop) v)
      (hrest : Accounted source stop ts ds) :
      Accounted source start
        (⟨kind, source.slice start stop, v, (lineAt source stop : Nat)⟩ :: ts) ds
  | blank {start : Nat} {b : UInt8} {ts : List Token} {ds : List Diagnostic}
      (h : source[start]? = some b) (hblank : b ∈ blanks)
      (hrest : Accounted source (start + 1) ts ds) : Accounted source start ts ds
  | comment {start stop : Nat} {text : Bytes} {ts : List Token} {ds : List Diagnostic}
      (hwithin : stop ≤ source.length) (h : source.slice start stop = utf8 "//" ++ text)
      (htext : Bytes.lineFeed ∉ text)
      (hend : stop = source.length ∨ source[stop]? = some Bytes.lineFeed)
      (hrest : Accounted source stop ts ds) : Accounted source start ts ds
  | rejected {start : Nat} {r : Rune} {cause : LexicalCause} {ts : List Token}
      {ds : List Diagnostic} (h : (Bytes.runes (source.drop start)).head? = some r)
      (hcause : Rejected r (source.drop (start + r.bytes.length)) cause)
      (hrest : Accounted source (start + r.bytes.length) ts ds) :
      Accounted source start ts
        (Diagnostic.lexical (lineAt source (start + r.bytes.length)) cause :: ds)
  | unterminated {start : Nat} {inside : Bytes} (h : source.drop start = Bytes.quote :: inside)
      (hinside : Bytes.quote ∉ inside) :
      Accounted source start [Token.endOfText (lineAt source source.length)]
        [Diagnostic.lexical (lineAt source source.length) .unterminatedString]

/-! ## Places between two parts of a text -/

section Place

variable (before text after : Bytes)

theorem slice_append :
    (before ++ (text ++ after)).slice before.length (before ++ text).length = text := by
  rw [Bytes.slice, ← List.append_assoc, List.take_left, List.drop_left]

theorem lineAt_append : lineAt (before ++ after) before.length =
    1 + before.count Bytes.lineFeed := by
  rw [lineAt, List.take_left]

theorem getElem?_append_head (b : UInt8) :
    (before ++ b :: after)[before.length]? = some b := by
  simp

end Place

/-! ## The run of a scan -/

/-- Earlier items stand in front of what is found from here on. -/
theorem run_behind (done : Result) (line : Nat) (rs : List Rune) :
    run done line rs = ⟨done.tokens.reverse ++ (run ⟨[], []⟩ line rs).tokens,
      done.faults.reverse ++ (run ⟨[], []⟩ line rs).faults⟩ := by
  rw [run_eq, run_eq ⟨[], []⟩, read_eq_behind done]
  simp [Result.closed, Result.behind]

/-- The items of a text behind `before` account for it. -/
theorem run_accounted (before text : Bytes) :
    Accounted (before ++ text) before.length
      (run ⟨[], []⟩ (1 + before.count Bytes.lineFeed) text.runes).tokens
      (run ⟨[], []⟩ (1 + before.count Bytes.lineFeed) text.runes).faults := by
  induction hlen : text.runes.length using Nat.strongRecOn generalizing before text with
  | ind n ih =>
      cases hrunes : text.runes with
      | nil =>
          obtain rfl : text = [] := eq_ofRunes hrunes
          rw [List.append_nil, run]
          have hline := lineAt_append before []
          rw [List.append_nil] at hline
          rw [← hline]
          exact .finish
      | cons r rs =>
          obtain ⟨taken, after, rfl, htaken, hafter⟩ :=
            Bytes.runes_eq_append (hrunes.trans (step_spelling r rs).symm)
          have hfound := step_finds r rs taken after htaken hafter
          have hshorter := step_rest_length r rs
          have hline : 1 + before.count Bytes.lineFeed + feeds (step r rs).taken =
              1 + (before ++ taken).count Bytes.lineFeed := by
            rw [← htaken, feeds_runes, List.count_append, Nat.add_assoc]
          rw [hrunes, List.length_cons] at hlen
          rw [← hafter] at hshorter
          have hrest := ih _ (by omega) (before ++ taken) after rfl
          have hplace := lineAt_append (before ++ taken) after
          rw [run_cons, run_behind, hline, ← hafter]
          rw [List.append_assoc] at hrest hplace
          rw [← hplace] at hrest ⊢
          have hspelling : Bytes.ofRunes (step r rs).taken = taken := (eq_ofRunes htaken).symm
          unfold Result.add
          rw [hspelling]
          generalize (step r rs).item = item at hfound ⊢
          cases hfound with
          | token hlexeme =>
              have hslice := slice_append before taken after
              have hpos := List.length_pos_iff.mpr hlexeme.ne_nil
              have hitem := Accounted.token (by simpa using hpos)
                (by simp) hlexeme.kind_ne_eof (hslice.symm ▸ hlexeme) hrest
              rw [hslice] at hitem
              exact hitem
          | blank hblank =>
              exact .blank (getElem?_append_head before after _) hblank (by simpa using hrest)
          | @comment text rest htext hend =>
              have hslice := slice_append before (utf8 "//" ++ text) after
              refine .comment (by simp) hslice htext ?_ hrest
              rcases hend with rfl | ⟨more, rfl⟩
              · simp
              · right
                rw [← List.append_assoc]
                exact getElem?_append_head _ more _
          | @rejected _ _ s cause hrune hcause =>
              have hfirst : s = r := by
                have hboth := step_spelling r rs
                rw [← htaken, hrune, List.singleton_append] at hboth
                exact (List.cons.inj hboth).1
              obtain rfl : taken = s.bytes := by
                rw [eq_ofRunes hrune]
                simp
              have hplace : (before ++ s.bytes).length = before.length + s.bytes.length :=
                List.length_append
              rw [hplace] at hrest ⊢
              refine .rejected ?_ ?_ hrest
              · rw [List.drop_left, hrunes, hfirst]
                rfl
              · rw [← hplace, ← List.append_assoc, List.drop_left]
                exact hcause
          | @unterminated inside hinside =>
              simp only [List.append_nil, Bytes.runes_nil, run]
              exact .unterminated (by simp) hinside

end Scan

open Scan

/-- A scan accounts for every byte of every text. -/
theorem scan_accounted (source : Bytes) :
    Accounted source 0 (scan source).tokens (scan source).faults :=
  run_accounted [] source

end Scribe
