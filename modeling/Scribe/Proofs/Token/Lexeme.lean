import Scribe.Proofs.Token.Reading
import Scribe.Proofs.Token.Spelling

/-!
# Lexemes

What the bytes of a token can be, told without the scan: a mark, digits, a text in quotes or a word.
A step of the scan finds such a token, or white space, a comment or a fault, and says nothing else
of the text that it takes.
-/

namespace Scribe

/-- The tokens that are written with a fixed mark. -/
def TokenKind.marks : List (TokenKind × Bytes) :=
  [(.leftParen, utf8 "("), (.rightParen, utf8 ")"), (.leftBrace, utf8 "\x7b"),
    (.rightBrace, utf8 "\x7d"), (.leftBracket, utf8 "["), (.rightBracket, utf8 "]"),
    (.comma, utf8 ","), (.dot, utf8 "."), (.minus, utf8 "-"), (.plus, utf8 "+"),
    (.semicolon, utf8 ";"), (.slash, utf8 "/"), (.star, utf8 "*"), (.bang, utf8 "!"),
    (.bangEqual, utf8 "!="), (.equal, utf8 "="), (.equalEqual, utf8 "=="), (.less, utf8 "<"),
    (.lessEqual, utf8 "<="), (.greater, utf8 ">"), (.greaterEqual, utf8 ">="),
    (.kwAnd, utf8 "&&"), (.kwOr, utf8 "||")]

open Scan

/-- The spelling of a token of a category, with its literal. -/
inductive Lexeme : TokenKind → Bytes → Value → Prop where
  | mark {kind : TokenKind} {text : Bytes} (h : (kind, text) ∈ TokenKind.marks) :
      Lexeme kind text .null
  | number {text : Bytes} {f : Float} (hplain : Decimal.Plain text)
      (hread : Decimal.read? text = some f) : Lexeme .number text (.number f)
  | string {inside : Bytes} (h : Bytes.quote ∉ inside) :
      Lexeme .string ([Bytes.quote] ++ inside ++ [Bytes.quote]) (.string inside)
  | word {text : Bytes} {r : Rune} {rs : List Rune} (hrunes : text.runes = r :: rs)
      (hstart : startsWord r.char = true) (hmore : ∀ s ∈ rs, continuesWord s.char = true) :
      Lexeme (TokenKind.ofWord text) text .null

theorem Lexeme.ne_nil {kind : TokenKind} {text : Bytes} {v : Value} (h : Lexeme kind text v) :
    text ≠ [] := by
  have hmarks : ∀ entry ∈ TokenKind.marks, entry.2 ≠ [] := by decide
  cases h with
  | mark hmark => exact hmarks _ hmark
  | number hplain _ =>
      obtain ⟨b, more, rfl, -⟩ := hplain.starts
      simp
  | string _ => simp
  | word hrunes _ _ =>
      rintro rfl
      simp at hrunes

theorem Lexeme.kind_ne_eof {kind : TokenKind} {text : Bytes} {v : Value} (h : Lexeme kind text v) :
    kind ≠ .eof := by
  have hmarks : ∀ entry ∈ TokenKind.marks, entry.1 ≠ .eof := by decide
  cases h with
  | mark hmark => exact hmarks _ hmark
  | number _ _ => simp
  | string _ => simp
  | word _ _ _ => exact ofWord_ne_eof text

/-- Marks and reserved words have no literal, and one spelling each. -/
theorem Lexeme.spelling {kind : TokenKind} {text : Bytes} {v : Value} (h : Lexeme kind text v)
    (hnumber : kind ≠ .number) (hstring : kind ≠ .string) : v = .null ∧
      (kind = .identifier ∨ (kind, text) ∈ TokenKind.marks ∨
        (text, kind) ∈ TokenKind.keywords) := by
  cases h with
  | mark hmark => exact ⟨rfl, .inr (.inl hmark)⟩
  | number _ _ => exact absurd rfl hnumber
  | string _ => exact absurd rfl hstring
  | word _ _ _ => exact ⟨rfl, (ofWord_cases text).imp_right .inr⟩

theorem ofWord_hasLiteral (word : Bytes) : (TokenKind.ofWord word).hasLiteral = false := by
  have hkeywords : ∀ entry ∈ TokenKind.keywords, entry.2.hasLiteral = false := by decide
  rcases ofWord_cases word with h | h
  · rw [h]
    rfl
  · exact hkeywords _ h

theorem marks_hasLiteral : ∀ entry ∈ TokenKind.marks, entry.1.hasLiteral = false := by decide

theorem Lexeme.of_number {kind : TokenKind} {text : Bytes} {v : Value} (h : Lexeme kind text v)
    (hkind : kind = .number) :
    ∃ f, v = .number f ∧ Decimal.Plain text ∧ Decimal.read? text = some f := by
  have hliteral : kind.hasLiteral = true := by rw [hkind]; rfl
  cases h with
  | mark hmark => exact absurd hliteral (by simp [marks_hasLiteral _ hmark])
  | number hplain hread => exact ⟨_, rfl, hplain, hread⟩
  | string _ => cases hkind
  | word _ _ _ => exact absurd hliteral (by simp [ofWord_hasLiteral])

theorem Lexeme.of_string {kind : TokenKind} {text : Bytes} {v : Value} (h : Lexeme kind text v)
    (hkind : kind = .string) : ∃ inside, v = .string inside := by
  have hliteral : kind.hasLiteral = true := by rw [hkind]; rfl
  cases h with
  | mark hmark => exact absurd hliteral (by simp [marks_hasLiteral _ hmark])
  | number _ _ => cases hkind
  | string _ => exact ⟨_, rfl⟩
  | word _ _ _ => exact absurd hliteral (by simp [ofWord_hasLiteral])

namespace Scan

def blanks : Bytes := [0x20, 0x09, 0x0D, 0x0A]

theorem blank_ascii {b : UInt8} (hblank : b ∈ blanks) : b < 0x80 := by
  have hall : ∀ b ∈ blanks, b < 0x80 := by simp [blanks]
  exact hall b hblank

/-- A token, a blank, a comment or a string may start with the character. -/
def startsItem (c : Char) : Bool :=
  "()\x7b\x7d[],.-+;*!=<>&|/ \t\r\n\"".toList.contains c || c.isDigit || startsWord c

/-- A rune that a scan rejects, in front of `rest`. -/
inductive Rejected : Rune → Bytes → LexicalCause → Prop where
  | alone {r : Rune} {rest : Bytes} (h : r.char = '&' ∨ r.char = '|')
      (hnext : Stops (· == r.char) rest) : Rejected r rest (.notDoubled r.char)
  | unexpected {r : Rune} {rest : Bytes} (h : startsItem r.char = false) :
      Rejected r rest (.unexpectedCharacter r.char)

/-- The forms of an item whose text stands in front of `rest`. -/
inductive Found : Item → Bytes → Bytes → Prop where
  | token {kind : TokenKind} {text rest : Bytes} {v : Value} (h : Lexeme kind text v) :
      Found (.token kind v) text rest
  | blank {b : UInt8} {rest : Bytes} (h : b ∈ blanks) : Found .skipped [b] rest
  | comment {text rest : Bytes} (htext : Bytes.lineFeed ∉ text)
      (hrest : rest = [] ∨ ∃ more, rest = Bytes.lineFeed :: more) :
      Found .skipped (utf8 "//" ++ text) rest
  | rejected {text rest : Bytes} {r : Rune} {cause : LexicalCause} (hrune : text.runes = [r])
      (h : Rejected r rest cause) : Found (.fault cause) text rest
  | unterminated {inside : Bytes} (h : Bytes.quote ∉ inside) :
      Found (.fault .unterminatedString) (Bytes.quote :: inside) []

/-! ## What one step finds -/

/-- Whatever text the runes of a step spell, the item has its form there. -/
def Step.Finds (s : Step) : Prop :=
  ∀ before after : Bytes, before.runes = s.taken → after.runes = s.rest → Found s.item before after

theorem eq_ofRunes {text : Bytes} {rs : List Rune} (h : text.runes = rs) :
    text = Bytes.ofRunes rs := by
  rw [← h, Bytes.ofRunes_runes]

section Marks

variable {r : Rune} {b : UInt8} (hb : b < 0x80) (hr : r.char = (Rune.ascii b).char)
include hb hr

theorem single_finds {kind : TokenKind} (hmark : (kind, [b]) ∈ TokenKind.marks)
    (rest : List Rune) : (single kind r rest).Finds := by
  intro before after hbefore _
  have hrune : r = Rune.ascii b :=
    Bytes.bytes_of_char (show r ∈ before.runes by simp [hbefore, single]) hb hr
  rw [eq_ofRunes hbefore]
  simp only [single, hrune]
  exact .token (.mark hmark)

theorem pair_finds (second : UInt8) (hsecond : second < 0x80) {both alone : TokenKind}
    (hboth : (both, [b, second]) ∈ TokenKind.marks) (halone : (alone, [b]) ∈ TokenKind.marks)
    (rest : List Rune) : (pair (Rune.ascii second).char both alone r rest).Finds := by
  unfold pair
  split
  · next s more =>
      split
      · next hnext =>
          intro before after hbefore _
          have hrune : r = Rune.ascii b :=
            Bytes.bytes_of_char (show r ∈ before.runes by simp [hbefore]) hb hr
          have hsecond : s = Rune.ascii second :=
            Bytes.bytes_of_char (show s ∈ before.runes by simp [hbefore]) hsecond
              (beq_iff_eq.mp hnext)
          rw [eq_ofRunes hbefore]
          simp only [hrune, hsecond]
          exact .token (.mark hboth)
      · exact single_finds hb hr halone (s :: more)
  · exact single_finds hb hr halone []

theorem doubled_finds {kind : TokenKind} (hlogical : r.char = '&' ∨ r.char = '|')
    (hmark : (kind, [b, b]) ∈ TokenKind.marks) (rest : List Rune) :
    (doubled kind r rest).Finds := by
  have halone : ∀ rest : List Rune, (∀ s ∈ rest.head?, (s.char == r.char) = false) →
      Step.Finds ⟨.fault (.notDoubled r.char), [r], rest⟩ := by
    simp only [Step.Finds]
    intro rest hnext before after hbefore hafter
    exact .rejected hbefore (.alone hlogical fun s hs => hnext s (hafter ▸ hs))
  unfold doubled
  split
  · next s more =>
      split
      · next hnext =>
          intro before after hbefore _
          have hrune : r = Rune.ascii b :=
            Bytes.bytes_of_char (show r ∈ before.runes by simp [hbefore]) hb hr
          have hsecond : s = Rune.ascii b :=
            Bytes.bytes_of_char (show s ∈ before.runes by simp [hbefore]) hb
              ((beq_iff_eq.mp hnext).trans hr)
          rw [eq_ofRunes hbefore]
          simp only [hrune, hsecond]
          exact .token (.mark hmark)
      · next hnext => exact halone (s :: more) (by simpa using hnext)
  · exact halone [] (by simp)

end Marks

theorem eq_cons_of_runes {text : Bytes} {r : Rune} {rs : List Rune} (h : text.runes = r :: rs)
    {b : UInt8} (hb : b < 0x80) (hr : r.char = (Rune.ascii b).char) :
    ∃ more : Bytes, text = b :: more ∧ more.runes = rs := by
  have hrune : r = Rune.ascii b := Bytes.bytes_of_char (show r ∈ text.runes by simp [h]) hb hr
  obtain ⟨first, more, rfl, hfirst, hmore⟩ :=
    Bytes.runes_eq_append (show text.runes = [r] ++ rs from h)
  refine ⟨more, ?_, hmore⟩
  rw [eq_ofRunes hfirst, hrune]
  rfl

theorem comment_finds {r s : Rune} (hr : r.char = '/') (hs : s.char = '/') (more : List Rune) :
    Step.Finds ⟨.skipped, r :: s :: more.takeWhile (!isFeed ·), more.dropWhile (!isFeed ·)⟩ := by
  simp only [Step.Finds]
  intro before after hbefore hafter
  obtain ⟨behind, rfl, hbehind⟩ := eq_cons_of_runes hbefore (b := 0x2F) (by decide) hr
  obtain ⟨text, rfl, htext⟩ := eq_cons_of_runes hbehind (b := 0x2F) (by decide) hs
  apply Found.comment
  · rw [← Bytes.mem_runes_ascii (by decide), htext]
    intro hmem
    exact absurd (List.mem_takeWhile_imp hmem) (by decide)
  · cases hrest : after.runes with
    | nil =>
        left
        rw [eq_ofRunes hrest]
        rfl
    | cons t rest =>
        right
        have hhead := List.head?_dropWhile_not (!isFeed ·) more
        rw [← hafter, hrest] at hhead
        have hfeed : t.char = '\n' := by simpa [isFeed] using hhead
        obtain ⟨rest, rfl, -⟩ := eq_cons_of_runes hrest (b := Bytes.lineFeed) (by decide) hfeed
        exact ⟨rest, rfl⟩

theorem slash_finds {r : Rune} (hr : r.char = '/') (rest : List Rune) : (slash r rest).Finds := by
  have halone : ∀ rest, (single .slash r rest).Finds :=
    single_finds (b := 0x2F) (by decide) hr (by decide)
  unfold slash
  split
  · next s more =>
      split
      · next hnext => exact comment_finds hr (beq_iff_eq.mp hnext) more
      · exact halone (s :: more)
  · exact halone []

theorem blank_finds {b : UInt8} (hblank : b ∈ blanks) {r : Rune}
    (hr : r.char = (Rune.ascii b).char) (rest : List Rune) : Step.Finds ⟨.skipped, [r], rest⟩ := by
  simp only [Step.Finds]
  intro before after hbefore _
  obtain ⟨more, rfl, hmore⟩ := eq_cons_of_runes hbefore (blank_ascii hblank) hr
  rw [eq_ofRunes hmore]
  exact .blank hblank

theorem string_finds {r : Rune} (hr : r.char = '"') (rest : List Rune) :
    (string r rest).Finds := by
  have hinside : ∀ text : Bytes, text.runes = rest.takeWhile (!isQuote ·) →
      Bytes.quote ∉ text := by
    intro text htext
    rw [← Bytes.mem_runes_ascii (by decide), htext]
    intro hmem
    exact absurd (List.mem_takeWhile_imp hmem) (by decide)
  have hhead := List.head?_dropWhile_not (!isQuote ·) rest
  simp only [string]
  split
  · next close more hdrop =>
      rw [hdrop] at hhead
      have hclose : close.char = '"' := by simpa [isQuote] using hhead
      simp only [Step.Finds]
      intro before after hbefore _
      obtain ⟨more, rfl, hmore⟩ := eq_cons_of_runes hbefore (b := Bytes.quote) (by decide) hr
      obtain ⟨inside, last, rfl, htext, hlast⟩ := Bytes.runes_eq_append hmore
      obtain ⟨none, rfl, hnone⟩ := eq_cons_of_runes hlast (b := Bytes.quote) (by decide) hclose
      rw [eq_ofRunes hnone, ← eq_ofRunes htext]
      exact .token (.string (hinside inside htext))
  · simp only [Step.Finds]
    intro before after hbefore hafter
    obtain ⟨inside, rfl, htext⟩ := eq_cons_of_runes hbefore (b := Bytes.quote) (by decide) hr
    rw [eq_ofRunes hafter]
    exact .unterminated (hinside inside htext)

theorem isDigit_of_runes {text : Bytes} (h : ∀ r ∈ text.runes, r.char.isDigit = true) :
    ∀ b ∈ text, Bytes.isDigit b = true := by
  intro b hb
  rw [← Bytes.ofRunes_runes text, Bytes.ofRunes, List.mem_flatMap] at hb
  obtain ⟨r, hr, hbyte⟩ := hb
  have hdigit := h r hr
  have hsmall : r.char.toNat < 0x80 := by
    simp only [Char.isDigit, Bool.and_eq_true, decide_eq_true_eq, UInt32.le_iff_toNat_le] at hdigit
    exact Nat.lt_of_le_of_lt hdigit.2 (by decide)
  obtain ⟨c, -, rfl⟩ := Bytes.mem_of_mem_runes hr hsmall
  obtain rfl : b = c := List.mem_singleton.mp hbyte
  exact (isDigit_ascii b).symm.trans hdigit

theorem finds_number {taken : List Rune}
    (hplain : ∀ text : Bytes, text.runes = taken → Decimal.Plain text) (rest : List Rune) :
    Step.Finds
      ⟨.token .number (.number (Decimal.readPlain (Bytes.ofRunes taken))), taken, rest⟩ := by
  simp only [Step.Finds]
  intro before after hbefore _
  have hbytes := hplain before hbefore
  rw [← eq_ofRunes hbefore]
  exact .token (.number hbytes (Decimal.read?_plain hbytes))

theorem number_finds {r : Rune} (hr : r.char.isDigit = true) (rest : List Rune) :
    (number r rest).Finds := by
  have hdigits : ∀ (rs : List Rune), ∀ s ∈ r :: rs.takeWhile (·.char.isDigit),
      s.char.isDigit = true := by
    intro rs s hs
    rcases List.mem_cons.mp hs with rfl | hs
    · exact hr
    · exact List.mem_takeWhile_imp (p := fun r : Rune => r.char.isDigit) hs
  have hwhole : ∀ text : Bytes, text.runes = r :: rest.takeWhile (·.char.isDigit) →
      Decimal.Plain text := by
    intro text htext
    apply Decimal.Plain.whole
    · rintro rfl
      simp at htext
    · exact isDigit_of_runes (htext ▸ hdigits rest)
  simp only [number]
  split
  · next point d more hafter =>
      split
      · next hpoint =>
          rw [Bool.and_eq_true, beq_iff_eq] at hpoint
          apply finds_number
          intro text htext
          obtain ⟨whole, places, rfl, hfront, hplaces⟩ := Bytes.runes_eq_append htext
          obtain ⟨fraction, rfl, hfraction⟩ :=
            eq_cons_of_runes hplaces (b := 0x2E) (by decide) hpoint.1
          rw [List.takeWhile_cons, if_pos hpoint.2] at hfraction
          apply Decimal.Plain.point
          · rintro rfl
            simp at hfront
          · rintro rfl
            simp at hfraction
          · intro b hb
            rcases List.mem_append.mp hb with hb | hb
            · exact isDigit_of_runes (hfront ▸ hdigits rest) b hb
            · refine isDigit_of_runes ?_ b hb
              rw [hfraction]
              intro s hs
              rcases List.mem_cons.mp hs with rfl | hs
              · exact hpoint.2
              · exact List.mem_takeWhile_imp (p := fun r : Rune => r.char.isDigit) hs
      · exact finds_number hwhole _
  · exact finds_number hwhole _

theorem word_finds {r : Rune} (hr : startsWord r.char = true) (rest : List Rune) :
    (word r rest).Finds := by
  simp only [Step.Finds, word]
  intro before after hbefore _
  rw [← eq_ofRunes hbefore]
  refine .token (.word hbefore hr fun s hs => ?_)
  exact List.mem_takeWhile_imp (p := fun r : Rune => continuesWord r.char) hs

theorem unexpected_finds {r : Rune} (h : startsItem r.char = false) (rest : List Rune) :
    Step.Finds ⟨.fault (.unexpectedCharacter r.char), [r], rest⟩ := by
  simp only [Step.Finds]
  intro before after hbefore _
  exact .rejected hbefore (.unexpected h)

theorem step_finds (r : Rune) (rest : List Rune) : (step r rest).Finds := by
  unfold step
  split
  case h_25 =>
    split
    · next hdigit => exact number_finds hdigit rest
    · next hdigit =>
        split
        · next hword => exact word_finds hword rest
        · next hword =>
            apply unexpected_finds
            simp_all [startsItem]
  case h_1 h => exact single_finds (b := 0x28) (by decide) h (by decide) rest
  case h_2 h => exact single_finds (b := 0x29) (by decide) h (by decide) rest
  case h_3 h => exact single_finds (b := 0x7B) (by decide) h (by decide) rest
  case h_4 h => exact single_finds (b := 0x7D) (by decide) h (by decide) rest
  case h_5 h => exact single_finds (b := 0x5B) (by decide) h (by decide) rest
  case h_6 h => exact single_finds (b := 0x5D) (by decide) h (by decide) rest
  case h_7 h => exact single_finds (b := 0x2C) (by decide) h (by decide) rest
  case h_8 h => exact single_finds (b := 0x2E) (by decide) h (by decide) rest
  case h_9 h => exact single_finds (b := 0x2D) (by decide) h (by decide) rest
  case h_10 h => exact single_finds (b := 0x2B) (by decide) h (by decide) rest
  case h_11 h => exact single_finds (b := 0x3B) (by decide) h (by decide) rest
  case h_12 h => exact single_finds (b := 0x2A) (by decide) h (by decide) rest
  case h_13 h =>
    exact pair_finds (b := 0x21) (by decide) h 0x3D (by decide) (by decide) (by decide) rest
  case h_14 h =>
    exact pair_finds (b := 0x3D) (by decide) h 0x3D (by decide) (by decide) (by decide) rest
  case h_15 h =>
    exact pair_finds (b := 0x3C) (by decide) h 0x3D (by decide) (by decide) (by decide) rest
  case h_16 h =>
    exact pair_finds (b := 0x3E) (by decide) h 0x3D (by decide) (by decide) (by decide) rest
  case h_17 h => exact doubled_finds (b := 0x26) (by decide) h (.inl h) (by decide) rest
  case h_18 h => exact doubled_finds (b := 0x7C) (by decide) h (.inr h) (by decide) rest
  case h_19 h => exact slash_finds h rest
  case h_20 h => exact blank_finds (b := 0x20) (by decide) h rest
  case h_21 h => exact blank_finds (b := 0x0D) (by decide) h rest
  case h_22 h => exact blank_finds (b := 0x09) (by decide) h rest
  case h_23 h => exact blank_finds (b := 0x0A) (by decide) h rest
  case h_24 h => exact string_finds h rest

end Scan

end Scribe
