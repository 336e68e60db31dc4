import Scribe.Proofs.Decimal.Digits
import Scribe.Proofs.Text.Runes
import Scribe.Token.Scan

/-!
# Texts that spell tokens

What a scan makes of the beginning of a text depends on the text behind it, since words and numbers
reach as far as they can. So a beginning is always considered together with its actual rest.
-/

namespace Scribe

namespace Scan

/-- In front of `rest`, the text is scanned without a fault to the tokens `ts`. It starts on `line`
and ends on `line'`. -/
def Spells (line : Nat) (text rest : Bytes) (ts : List Token) (line' : Nat) : Prop :=
  ∀ done : Result, run done line (text ++ rest).runes =
    run { done with tokens := ts.reverse ++ done.tokens } line' rest.runes

theorem Spells.append {line line' line'' : Nat} {text text' rest : Bytes} {ts us : List Token}
    (h : Spells line text (text' ++ rest) ts line') (h' : Spells line' text' rest us line'') :
    Spells line (text ++ text') rest (ts ++ us) line'' := by
  intro done
  rw [List.append_assoc, h, h']
  simp only [List.reverse_append, List.append_assoc]

theorem Spells.scan_eq {text : Bytes} {ts : List Token} {line : Nat}
    (h : Spells 1 text [] ts line) : scan text = ⟨ts ++ [Token.endOfText line], []⟩ := by
  have hrun := h ⟨[], []⟩
  rw [List.append_nil] at hrun
  rw [scan, hrun, Bytes.runes_nil, run]
  simp

theorem run_cons (done : Result) (line : Nat) (r : Rune) (rs : List Rune) :
    run done line (r :: rs) =
      run (done.add (step r rs) (line + feeds (step r rs).taken))
        (line + feeds (step r rs).taken) (step r rs).rest := by
  rw [run]

section Step

variable (line : Nat) (text rest : Bytes) {r : Rune} {rs : List Rune} (taken : List Rune)

theorem spells_token {kind : TokenKind} {v : Value} (hrunes : (text ++ rest).runes = r :: rs)
    (hstep : step r rs = ⟨.token kind v, taken, rest.runes⟩) :
    Spells line text rest [⟨kind, text, v, (line + feeds taken : Nat)⟩] (line + feeds taken) := by
  have hlexeme : Bytes.ofRunes taken = text := by
    have hspelling := congrArg Bytes.ofRunes (step_spelling r rs)
    rw [hstep, ← hrunes, Bytes.ofRunes_append, Bytes.ofRunes_runes,
      Bytes.ofRunes_runes] at hspelling
    exact List.append_cancel_right hspelling
  intro done
  rw [hrunes, run_cons, hstep]
  simp only [Result.add, hlexeme]
  rfl

theorem spells_skipped (hrunes : (text ++ rest).runes = r :: rs)
    (hstep : step r rs = ⟨.skipped, taken, rest.runes⟩) :
    Spells line text rest [] (line + feeds taken) := by
  intro done
  rw [hrunes, run_cons, hstep]
  rfl

end Step

/-! ## Single characters -/

section Single

variable (line : Nat) (rest : Bytes)

theorem spells_single {b : UInt8} (hb : b < 0x80) {kind : TokenKind}
    (hfeed : isFeed (Rune.ascii b) = false)
    (hstep : ∀ rs, step (Rune.ascii b) rs = single kind (Rune.ascii b) rs) :
    Spells line [b] rest [⟨kind, [b], .null, line⟩] line := by
  have h := spells_token line [b] rest _ (Bytes.runes_ascii_cons hb rest) (hstep rest.runes)
  rw [show feeds [Rune.ascii b] = 0 by simp [feeds, hfeed]] at h
  exact h

theorem spells_space : Spells line [0x20] rest [] line :=
  spells_skipped line [0x20] rest _ (Bytes.runes_ascii_cons (by decide) rest) rfl

theorem spells_equal :
    Spells line [0x3D] (0x20 :: rest) [⟨.equal, [0x3D], .null, line⟩] line := by
  have hrunes : ([0x3D] ++ 0x20 :: rest : Bytes).runes =
      Rune.ascii 0x3D :: Rune.ascii 0x20 :: rest.runes :=
    Bytes.runes_ascii_append [0x3D, 0x20] (by simp) rest
  refine spells_token line [0x3D] (0x20 :: rest) [Rune.ascii 0x3D] hrunes ?_
  rw [Bytes.runes_ascii_cons (by decide)]
  rfl

end Single

/-! ## Words and numbers -/

/-- What stands next, if anything does, fails a test. -/
def Stops (p : Char → Bool) (rest : Bytes) : Prop := ∀ r ∈ rest.runes.head?, p r.char = false

theorem stops_cons {p : Char → Bool} {b : UInt8} (hb : b < 0x80) (rest : Bytes) :
    Stops p (b :: rest) ↔ p (Rune.ascii b).char = false := by
  simp [Stops, Bytes.runes_ascii_cons hb]

section Span

variable {p : Char → Bool} {text rest : Bytes} (htext : ∀ b ∈ text, p (Rune.ascii b).char = true)
  (hrest : Stops p rest)
include htext hrest

/-- What passes a test is taken up to the first character that fails it. -/
theorem takeWhile_ascii :
    (text.map Rune.ascii ++ rest.runes).takeWhile (p ·.char) = text.map Rune.ascii := by
  induction text with
  | nil =>
      cases hr : rest.runes with
      | nil => rfl
      | cons r rs =>
          have hfails := hrest r (by simp [hr])
          simp [hfails]
  | cons b text ih =>
      rw [List.map_cons, List.cons_append, List.takeWhile_cons,
        if_pos (htext b List.mem_cons_self), ih fun c hc => htext c (List.mem_cons_of_mem b hc)]

theorem dropWhile_ascii :
    (text.map Rune.ascii ++ rest.runes).dropWhile (p ·.char) = rest.runes := by
  have hsplit := List.takeWhile_append_dropWhile (p := (p ·.char))
    (l := text.map Rune.ascii ++ rest.runes)
  rw [takeWhile_ascii htext hrest] at hsplit
  exact List.append_cancel_left hsplit

end Span

theorem step_word {r : Rune} {rs : List Rune} (hword : startsWord r.char = true)
    (hdigit : r.char.isDigit = false) : step r rs = word r rs := by
  unfold step
  split
  case h_25 => rw [if_neg (by rw [hdigit]; decide), if_pos hword]
  all_goals
    next heq =>
      rw [heq] at hword
      exact absurd hword (by decide)

theorem step_number {r : Rune} {rs : List Rune} (hdigit : r.char.isDigit = true) :
    step r rs = number r rs := by
  unfold step
  split
  case h_25 => rw [if_pos hdigit]
  all_goals
    next heq =>
      rw [heq] at hdigit
      exact absurd hdigit (by decide)

theorem spells_ascii (line : Nat) {b : UInt8} {more rest : Bytes}
    (hascii : ∀ c ∈ b :: more, c < 0x80) {kind : TokenKind} {v : Value}
    (hstep : step (Rune.ascii b) (more.map Rune.ascii ++ rest.runes) =
      ⟨.token kind v, (b :: more).map Rune.ascii, rest.runes⟩) :
    ∃ line' : Nat, Spells line (b :: more) rest [⟨kind, b :: more, v, line'⟩] line' := by
  have hrunes := Bytes.runes_ascii_append (b :: more) hascii rest
  exact ⟨_, spells_token line (b :: more) rest ((b :: more).map Rune.ascii) hrunes hstep⟩

/-- ASCII bytes that a word can consist of. -/
def isWord : Bytes → Bool
  | [] => false
  | b :: more =>
      (b :: more).all (· < 0x80) && startsWord (Rune.ascii b).char &&
        !(Rune.ascii b).char.isDigit && more.all fun c => continuesWord (Rune.ascii c).char

theorem spells_word (line : Nat) {text rest : Bytes} (htext : isWord text = true)
    (hrest : Stops continuesWord rest) :
    ∃ line' : Nat, Spells line text rest
      [⟨TokenKind.ofWord text, text, .null, line'⟩] line' := by
  cases text with
  | nil => cases htext
  | cons b more =>
      simp only [isWord, Bool.and_eq_true, Bool.not_eq_true', List.all_eq_true,
        decide_eq_true_eq] at htext
      obtain ⟨⟨⟨hascii, hstart⟩, hdigit⟩, hmore⟩ := htext
      have htaken : Bytes.ofRunes (Rune.ascii b :: more.map Rune.ascii) = b :: more :=
        Bytes.ofRunes_ascii (b :: more)
      refine spells_ascii line hascii ?_
      rw [step_word hstart hdigit, word, takeWhile_ascii hmore hrest, dropWhile_ascii hmore hrest,
        htaken]
      rfl

theorem isDigit_of_startsWord {c : Char} (h : startsWord c = true) : c.isDigit = false := by
  rw [startsWord, Bool.or_eq_true, beq_iff_eq] at h
  rcases h with hletter | rfl
  · by_cases hascii : c.toNat < 128
    · rw [isLetter, if_pos hascii] at hletter
      simp [Char.isAlpha, Char.isUpper, Char.isLower, Char.isDigit,
        UInt32.le_iff_toNat_le] at hletter ⊢
      omega
    · simp [Char.isDigit, UInt32.le_iff_toNat_le]
      omega
  · decide

theorem spells_name (line : Nat) {text : Bytes} {r : Rune} {rs : List Rune}
    (hrunes : text.runes = r :: rs) (hstart : startsWord r.char = true)
    (hmore : ∀ s ∈ rs, continuesWord s.char = true) {b : UInt8} (hb : b < 0x80)
    (hstop : continuesWord (Rune.ascii b).char = false) (rest : Bytes) :
    ∃ line' : Nat, Spells line text (b :: rest)
      [⟨TokenKind.ofWord text, text, .null, line'⟩] line' := by
  have hlexeme : Bytes.ofRunes (r :: rs) = text := by rw [← hrunes, Bytes.ofRunes_runes]
  have htext : Bytes.runes (text ++ b :: rest) = r :: (rs ++ Bytes.runes (b :: rest)) := by
    rw [Bytes.runes_append hb, hrunes, List.cons_append]
  refine ⟨_, spells_token line text (b :: rest) (r :: rs) htext ?_⟩
  rw [step_word hstart (isDigit_of_startsWord hstart), word, Bytes.runes_ascii_cons hb,
    List.takeWhile_append_of_pos hmore, List.dropWhile_append_of_pos hmore,
    List.takeWhile_cons_of_neg (by simp [hstop]), List.dropWhile_cons_of_neg (by simp [hstop]),
    List.append_nil, hlexeme]

theorem digit_ascii {b : UInt8} (h : Bytes.isDigit b = true) : b < 0x80 := by
  simp only [Bytes.isDigit, Bool.and_eq_true, decide_eq_true_eq, UInt8.le_iff_toNat_le] at h
  rw [UInt8.lt_iff_toNat_lt]
  exact Nat.lt_of_le_of_lt h.2 (by decide)

theorem isDigit_ascii (b : UInt8) : (Rune.ascii b).char.isDigit = Bytes.isDigit b := by
  have hchar : (Rune.ascii b).char.toNat = b.toNat := Rune.ascii_toNat b
  rw [Bool.eq_iff_iff]
  simp only [Char.isDigit, Bytes.isDigit, Bool.and_eq_true, decide_eq_true_eq, ge_iff_le,
    UInt32.le_iff_toNat_le, UInt8.le_iff_toNat_le, UInt8.reduceToNat]
  change 48 ≤ (Rune.ascii b).char.toNat ∧ (Rune.ascii b).char.toNat ≤ 57 ↔ _
  omega

section Number

variable {digits rest : Bytes} (hdigits : ∀ b ∈ digits, Bytes.isDigit b = true)
include hdigits

theorem digits_ascii : ∀ b ∈ digits, (Rune.ascii b).char.isDigit = true :=
  fun b hb => (isDigit_ascii b).trans (hdigits b hb)

theorem number_whole (r : Rune) (hdigit : Stops Char.isDigit rest)
    (hpoint : Stops (· == '.') rest) :
    number r (digits.map Rune.ascii ++ rest.runes) =
      ⟨.token .number (.number (Decimal.readPlain (Bytes.ofRunes (r :: digits.map Rune.ascii)))),
        r :: digits.map Rune.ascii, rest.runes⟩ := by
  have hpass := digits_ascii hdigits
  rw [number, takeWhile_ascii hpass hdigit, dropWhile_ascii hpass hdigit]
  split
  · next point d more heq =>
      have hno : (point.char == '.') = false := hpoint point (by simp [heq])
      rw [hno, heq]
      rfl
  · rfl

theorem number_point (r : Rune) {d : UInt8} {fraction : Bytes}
    (hfraction : ∀ b ∈ d :: fraction, Bytes.isDigit b = true) (hdigit : Stops Char.isDigit rest) :
    number r (digits.map Rune.ascii ++ Bytes.runes (0x2E :: (d :: fraction ++ rest))) =
      ⟨.token .number (.number (Decimal.readPlain (Bytes.ofRunes
          (r :: digits.map Rune.ascii ++ (0x2E :: d :: fraction).map Rune.ascii)))),
        r :: digits.map Rune.ascii ++ (0x2E :: d :: fraction).map Rune.ascii, rest.runes⟩ := by
  have hpass := digits_ascii hdigits
  have hpass' := digits_ascii hfraction
  have hstop : Stops Char.isDigit (0x2E :: (d :: fraction ++ rest)) :=
    (stops_cons (by decide) _).mpr rfl
  have hascii : ∀ b ∈ d :: fraction, b < 0x80 := fun b hb => digit_ascii (hfraction b hb)
  rw [number, takeWhile_ascii hpass hstop, dropWhile_ascii hpass hstop,
    Bytes.runes_ascii_cons (by decide), Bytes.runes_ascii_append _ hascii]
  have htake := takeWhile_ascii hpass' hdigit
  have hdrop := dropWhile_ascii hpass' hdigit
  rw [List.map_cons, List.cons_append] at htake hdrop ⊢
  have hboth : ((Rune.ascii 0x2E).char == '.' && (Rune.ascii d).char.isDigit) = true := by
    rw [hpass' d List.mem_cons_self]
    rfl
  simp only [if_pos hboth, htake, hdrop]
  rfl

end Number

/-- Digits, or digits on both sides of a point, that nothing behind them continues. -/
theorem spells_plain (line : Nat) {text rest : Bytes} (h : Decimal.Plain text)
    (hdigit : Stops Char.isDigit rest) (hpoint : Stops (· == '.') rest) :
    ∃ line' : Nat, Spells line text rest
      [⟨.number, text, .number (Decimal.readPlain text), line'⟩] line' := by
  cases h with
  | whole hne hdigits =>
      obtain ⟨b, more, rfl⟩ := List.exists_cons_of_ne_nil hne
      have hmore : ∀ c ∈ more, Bytes.isDigit c = true :=
        fun c hc => hdigits c (List.mem_cons_of_mem b hc)
      have htaken : Bytes.ofRunes (Rune.ascii b :: more.map Rune.ascii) = b :: more :=
        Bytes.ofRunes_ascii (b :: more)
      refine spells_ascii line (fun c hc => digit_ascii (hdigits c hc)) ?_
      rw [step_number ((isDigit_ascii b).trans (hdigits b List.mem_cons_self)),
        number_whole hmore _ hdigit hpoint, htaken]
      rfl
  | @point whole fraction hwhole hfraction hdigits =>
      obtain ⟨b, more, rfl⟩ := List.exists_cons_of_ne_nil hwhole
      obtain ⟨d, fraction, rfl⟩ := List.exists_cons_of_ne_nil hfraction
      have hmore : ∀ c ∈ more, Bytes.isDigit c = true :=
        fun c hc => hdigits c (by simp [hc])
      have hplaces : ∀ c ∈ d :: fraction, Bytes.isDigit c = true :=
        fun c hc => hdigits c (List.mem_append_right _ hc)
      have hascii : ∀ c ∈ b :: (more ++ 0x2E :: d :: fraction), c < 0x80 := by
        intro c hc
        rw [← List.cons_append, List.mem_append, List.mem_cons (b := 0x2E)] at hc
        rcases hc with hc | rfl | hc
        · exact digit_ascii (hdigits c (List.mem_append_left _ hc))
        · decide
        · exact digit_ascii (hplaces c hc)
      have hrunes : (more ++ 0x2E :: d :: fraction).map Rune.ascii ++ rest.runes =
          more.map Rune.ascii ++ Bytes.runes (0x2E :: (d :: fraction ++ rest)) := by
        rw [List.map_append, List.append_assoc]
        congr 1
        refine (Bytes.runes_ascii_append (0x2E :: d :: fraction) ?_ rest).symm
        exact fun c hc => hascii c (List.mem_cons_of_mem b (List.mem_append_right more hc))
      have htaken : Rune.ascii b :: more.map Rune.ascii ++ (0x2E :: d :: fraction).map Rune.ascii =
          (b :: (more ++ 0x2E :: d :: fraction)).map Rune.ascii := by
        simp
      refine spells_ascii line hascii ?_
      rw [hrunes, step_number ((isDigit_ascii b).trans (hdigits b (by simp))),
        number_point hmore _ hplaces hdigit, htaken, Bytes.ofRunes_ascii]
      rfl

/-! ## Strings -/

theorem runes_not_quote {text : Bytes} (h : Bytes.quote ∉ text) :
    ∀ r ∈ text.runes, (!isQuote r) = true := by
  intro r hr
  rw [Bool.not_eq_true', isQuote, beq_eq_false_iff_ne]
  intro hquote
  rw [Bytes.bytes_of_char hr (b := Bytes.quote) (by decide) hquote] at hr
  exact h ((Bytes.mem_runes_ascii (by decide)).mp hr)

theorem spells_string (line : Nat) {text : Bytes} (h : Bytes.quote ∉ text) (rest : Bytes) :
    ∃ line' : Nat, Spells line ([Bytes.quote] ++ text ++ [Bytes.quote]) rest
      [⟨.string, [Bytes.quote] ++ text ++ [Bytes.quote], .string text, line'⟩] line' := by
  have hquote : Bytes.quote < 0x80 := by decide
  have hrunes : Bytes.runes ([Bytes.quote] ++ text ++ [Bytes.quote] ++ rest) =
      Rune.ascii Bytes.quote :: (text.runes ++ Rune.ascii Bytes.quote :: rest.runes) := by
    rw [List.append_assoc, List.append_assoc, List.singleton_append, List.singleton_append,
      Bytes.runes_ascii_cons hquote, Bytes.runes_append hquote, Bytes.runes_ascii_cons hquote]
  refine ⟨_, spells_token line _ rest
    (Rune.ascii Bytes.quote :: text.runes ++ [Rune.ascii Bytes.quote]) hrunes ?_⟩
  have hpass := runes_not_quote h
  have hclose : (!isQuote (Rune.ascii Bytes.quote)) = false := rfl
  change string _ _ = _
  simp only [string, List.takeWhile_append_of_pos hpass, List.dropWhile_append_of_pos hpass,
    List.takeWhile_cons, List.dropWhile_cons, hclose, Bool.false_eq_true, if_false,
    List.append_nil, Bytes.ofRunes_runes]

end Scan

end Scribe
