import Scribe.Document.ReadJson
import Scribe.Proofs.Text.Quoted

/-!
# JSON texts that are read

What the reader of JSON makes of a quoted text and of a number, whatever stands behind it. A quoted
text and a string of JSON share most of their escapes. A text is portable if its quoted form uses
no other escapes, and the reader takes its quoted form exactly then, and gives the text back.
-/

namespace Scribe

namespace Quoted

def sharedControls : List Char := ['\x08', '\t', '\n', '\x0C', '\r']

/-- The quoted form of a rune means the same in a string of JSON. -/
def isPortable (r : Rune) : Bool :=
  !r.isMalformed &&
    (isPrintable r.char || sharedControls.contains r.char ||
      (0x80 ≤ r.char.toNat && r.char.toNat < 0x10000))

end Quoted

/-- The text holds no malformed bytes, no control characters of ASCII other than those that JSON has
letters for, and beyond sixteen bits no characters that do not print. -/
def Bytes.IsPortable (text : Bytes) : Prop := ∀ r ∈ text.runes, Quoted.isPortable r = true

instance (text : Bytes) : Decidable text.IsPortable :=
  inferInstanceAs (Decidable (∀ r ∈ text.runes, Quoted.isPortable r = true))

namespace JsonText

open Bytes (ofChars)

/-! ## Strings -/

theorem string_byte {b : UInt8} (hquote : b ≠ 0x22) (hslash : b ≠ 0x5C) (hspace : ¬ b < 0x20)
    (fuel : Nat) (done : List Bytes) (rest : Bytes) :
    string (fuel + 1) done (b :: rest) = string fuel ([b] :: done) rest := by
  rw [string, if_neg hquote, if_neg hslash, if_neg hspace]

theorem string_bytes {text : Bytes}
    (h : ∀ b ∈ text, b ≠ 0x22 ∧ b ≠ 0x5C ∧ ¬ b < 0x20) (fuel : Nat) (done : List Bytes)
    (rest : Bytes) : ∃ done', string (fuel + text.length) done (text ++ rest) =
      string fuel done' rest ∧ done'.reverse.flatten = done.reverse.flatten ++ text := by
  induction text generalizing done with
  | nil => exact ⟨done, rfl, (List.append_nil _).symm⟩
  | cons b text ih =>
      obtain ⟨hquote, hslash, hspace⟩ := h b List.mem_cons_self
      obtain ⟨done', hstring, hdone⟩ :=
        ih (fun c hc => h c (List.mem_cons_of_mem b hc)) ([b] :: done)
      refine ⟨done', ?_, ?_⟩
      · rw [← hstring, List.length_cons, ← Nat.add_assoc, List.cons_append,
          string_byte hquote hslash hspace]
      · rw [hdone]
        simp

theorem string_escape {letter : UInt8} {tail piece rest : Bytes}
    (h : escape (letter :: tail) = .ok (piece, rest)) (fuel : Nat) (done : List Bytes) :
    string (fuel + 1) done (0x5C :: letter :: tail) = string fuel (piece :: done) rest := by
  rw [string, if_neg (by decide), if_pos rfl, h]

theorem string_unknown {letter : UInt8} (h : letter = 0x61 ∨ letter = 0x76 ∨ letter = 0x78 ∨
    letter = 0x55) (fuel : Nat) (done : List Bytes) (rest : Bytes) :
    string (fuel + 1) done (0x5C :: letter :: rest) = .error (.unknownEscape [0x5C, letter]) := by
  rcases h with rfl | rfl | rfl | rfl <;> rfl

theorem unit_hex {n : Nat} (h : n < 0x10000) (rest : Bytes) :
    unit (Bytes.hex n 4 ++ rest) = .ok (n, rest) := by
  have hdigit : ∀ m, Bytes.digitValue? (Bytes.hexDigit (m % 16)) = some (m % 16) :=
    fun m => Bytes.digitValue?_hexDigit (Nat.mod_lt m (by decide))
  have hdigits : (Bytes.hex n 4).filterMap Bytes.digitValue? =
      [n / 16 / 16 / 16 % 16, n / 16 / 16 % 16, n / 16 % 16, n % 16] := by
    simp [Bytes.hex, hdigit]
  have hlength : (Bytes.hex n 4).length = 4 := Bytes.hex_length n 4
  rw [unit, List.take_left' hlength, List.drop_left' hlength, hdigits]
  simp only [List.length_cons, List.length_nil, Nat.reduceAdd, if_true, List.foldl_cons,
    List.foldl_nil, Except.ok.injEq, Prod.mk.injEq, and_true]
  omega

theorem escape_unit {c : Char} (h : c.toNat < 0x10000) (rest : Bytes) :
    escape (0x75 :: (Bytes.hex c.toNat 4 ++ rest)) = .ok (utf8Char c, rest) := by
  have hvalid : c.toNat < 0xD800 ∨ 0xDFFF < c.toNat ∧ c.toNat < 0x110000 := c.valid
  have hchar : ofUnit c.toNat = c := by
    rw [ofUnit, if_pos hvalid, Char.ofNat_toNat]
  -- A character is no half of a pair.
  have hpair : ∀ low, pair? c.toNat low = none := by
    intro low
    rw [pair?, if_neg]
    simp only [Bool.and_eq_true, decide_eq_true_eq]
    omega
  rw [escape]
  iterate 6 rw [if_neg (by decide)]
  rw [if_pos rfl, unit_hex h]
  simp only [hchar, hpair]
  split
  · split <;> rfl
  · rfl

/-! ## Quoted texts -/

open Quoted (isPortable letter? sharedControls)

theorem escape_letter {c : Char} {letter : UInt8} (h : letter? c = some letter)
    (hportable : isPortable (Rune.ofChar c) = true) (rest : Bytes) :
    escape (letter :: rest) = .ok (utf8Char c, rest) := by
  unfold letter? at h
  split at h <;> cases h <;> obtain rfl := Quoted.char_eq_ofNat ‹_› <;>
    first | rfl | cases hportable

theorem isPortable_ofChar (c : Char) : isPortable (Rune.ofChar c) =
    (isPrintable c || sharedControls.contains c || (0x80 ≤ c.toNat && c.toNat < 0x10000)) := by
  rw [isPortable, Quoted.isMalformed_ofChar, Bool.not_false, Bool.true_and]
  rfl

/-- Of the characters that a quoted text writes by their number, the portable ones take sixteen bits
and not only seven. -/
theorem isPortable_iff {c : Char} (hletter : letter? c = none) (hprint : ¬ isPrintable c = true) :
    isPortable (Rune.ofChar c) = true ↔ ¬ c.toNat < 0x80 ∧ c.toNat < 0x10000 := by
  have hshared : c ∉ sharedControls := by
    intro hmem
    simp only [sharedControls, List.mem_cons, List.not_mem_nil, or_false] at hmem
    rcases hmem with rfl | rfl | rfl | rfl | rfl <;> cases hletter
  simp [isPortable_ofChar, hshared, hprint]

/-- A rune that is portable is read, and adds its bytes. -/
theorem string_rune {text : Bytes} {r : Rune} (hr : r ∈ text.runes)
    (hportable : isPortable r = true) {fuel : Nat} {rest : Bytes}
    (hfuel : (Quoted.rune r ++ rest).length < fuel) (done : List Bytes) :
    ∃ fuel' done', string fuel done (Quoted.rune r ++ rest) = string fuel' done' rest ∧
      rest.length < fuel' ∧ done'.reverse.flatten = done.reverse.flatten ++ r.bytes := by
  rcases Bytes.rune_cases hr with ⟨b, -, rfl⟩ | hchar
  · simp [isPortable, Rune.malformed, Rune.isMalformed] at hportable
  · generalize r.char = c at hchar
    subst hchar
    have hbytes : ∀ piece : Bytes,
        (piece :: done).reverse.flatten = done.reverse.flatten ++ piece := by
      simp
    rw [Quoted.rune_ofChar] at hfuel ⊢
    obtain ⟨fuel, rfl⟩ : ∃ n, fuel = n + 1 := ⟨fuel - 1, by omega⟩
    cases hletter : letter? c with
    | some letter =>
        simp only [hletter, List.cons_append, List.nil_append, List.length_cons] at hfuel ⊢
        refine ⟨fuel, _, string_escape (escape_letter hletter hportable rest) fuel done, by omega,
          hbytes _⟩
    | none =>
        simp only [hletter] at hfuel ⊢
        by_cases hprint : isPrintable c = true
        · rw [if_pos hprint, List.length_append] at hfuel
          rw [if_pos hprint]
          obtain ⟨done', hstring, hdone⟩ := string_bytes
            (fun b hb => Quoted.plain_of_mem hr hletter hprint hb)
            (fuel + 1 - (utf8Char c).length) done rest
          have hroom : fuel + 1 - (utf8Char c).length + (utf8Char c).length = fuel + 1 :=
            Nat.sub_add_cancel (by omega)
          rw [show (Rune.ofChar c).bytes = utf8Char c from rfl, hroom] at hstring
          exact ⟨_, done', hstring, by omega, hdone⟩
        · have hcode := (isPortable_iff hletter hprint).mp hportable
          rw [if_neg hprint, if_neg hcode.1, if_pos hcode.2] at hfuel ⊢
          rw [List.cons_append, List.cons_append] at hfuel ⊢
          refine ⟨fuel, _, string_escape (escape_unit hcode.2 rest) fuel done, ?_, hbytes _⟩
          simp only [List.length_cons, List.length_append] at hfuel
          omega

/-- A rune that is not portable is an escape that the reader does not know. -/
theorem string_unportable {text : Bytes} {r : Rune} (hr : r ∈ text.runes)
    (hportable : ¬ isPortable r = true) (fuel : Nat) (done : List Bytes) (rest : Bytes) :
    string (fuel + 1) done (Quoted.rune r ++ rest) =
      .error (.unknownEscape ((Quoted.rune r).take 2)) := by
  rcases Bytes.rune_cases hr with ⟨b, -, rfl⟩ | hchar
  · exact string_unknown (by decide) fuel done _
  · generalize r.char = c at hchar
    subst hchar
    rw [Quoted.rune_ofChar]
    cases hletter : letter? c with
    | some letter =>
        refine string_unknown ?_ fuel done rest
        unfold letter? at hletter
        split at hletter <;> cases hletter <;> obtain rfl := Quoted.char_eq_ofNat ‹_› <;>
          first | decide | exact absurd rfl hportable
    | none =>
        have hprint : ¬ isPrintable c = true := by
          intro hprint
          exact hportable (by rw [isPortable_ofChar, hprint, Bool.true_or, Bool.true_or])
        have hcode := mt (isPortable_iff hletter hprint).mpr hportable
        simp only [if_neg hprint]
        split
        · exact string_unknown (by decide) fuel done _
        · next hwide =>
            rw [if_neg fun hunit => hcode ⟨hwide, hunit⟩]
            exact string_unknown (by decide) fuel done _

/-- The first rune that is not portable decides what the reader makes of the runes of a quoted
text. -/
theorem string_runes {text : Bytes} {rs : List Rune} (hrs : ∀ r ∈ rs, r ∈ text.runes) {fuel : Nat}
    {rest : Bytes} (hfuel : (rs.flatMap Quoted.rune ++ Bytes.quote :: rest).length < fuel)
    (done : List Bytes) :
    string fuel done (rs.flatMap Quoted.rune ++ Bytes.quote :: rest) =
      match rs.find? (!isPortable ·) with
      | none => .ok (ofChars (Bytes.chars (done.reverse.flatten ++ Bytes.ofRunes rs)), rest)
      | some r => .error (.unknownEscape ((Quoted.rune r).take 2)) := by
  induction rs generalizing fuel done with
  | nil =>
      obtain ⟨fuel, rfl⟩ : ∃ n, fuel = n + 1 := ⟨fuel - 1, by omega⟩
      rw [Bytes.ofRunes_nil, List.append_nil]
      rfl
  | cons r rs ih =>
      have hr := hrs r List.mem_cons_self
      rw [List.flatMap_cons, List.append_assoc] at hfuel ⊢
      by_cases hportable : isPortable r = true
      · obtain ⟨fuel', done', hstring, hroom, hdone⟩ := string_rune hr hportable hfuel done
        rw [hstring, Bytes.ofRunes_cons, ← List.append_assoc, ← hdone,
          ih (fun s hs => hrs s (List.mem_cons_of_mem r hs)) hroom done',
          List.find?_cons_of_neg (by simp [hportable])]
      · obtain ⟨fuel, rfl⟩ : ∃ n, fuel = n + 1 := ⟨fuel - 1, by omega⟩
        rw [string_unportable hr hportable, List.find?_cons_of_pos (by simp [hportable])]

theorem ofChars_chars {text : Bytes} (h : text.IsPortable) : ofChars text.chars = text := by
  have hspelling : ∀ r ∈ text.runes, utf8Char r.char = r.bytes := by
    intro r hr
    rcases Bytes.rune_cases hr with ⟨b, -, rfl⟩ | hchar
    · cases h _ hr
    · rw [hchar]
      rfl
  conv_rhs => rw [← Bytes.ofRunes_runes text]
  rw [Bytes.chars, ofChars, List.flatMap_map]
  exact List.flatMap_congr hspelling

/-- Behind its opening quote, a quoted text is read as the text itself if it is portable, and is
not read otherwise. -/
theorem string_quoted (text rest : Bytes) :
    let behind := text.runes.flatMap Quoted.rune ++ Bytes.quote :: rest
    (text.IsPortable → string (behind.length + 1) [] behind = .ok (text, rest)) ∧
      (¬ text.IsPortable → ∃ fault, string (behind.length + 1) [] behind = .error fault) := by
  intro behind
  have hread := string_runes (fun r (hr : r ∈ text.runes) => hr) (Nat.lt_succ_self behind.length) []
  rw [show ([] : List Bytes).reverse.flatten ++ Bytes.ofRunes text.runes = text from
    Bytes.ofRunes_runes text] at hread
  constructor
  · intro hportable
    have hnone : text.runes.find? (!isPortable ·) = none := by
      simpa [Bytes.IsPortable] using hportable
    rw [hnone, ofChars_chars hportable] at hread
    exact hread
  · intro hportable
    obtain ⟨r, hr⟩ : ∃ r, text.runes.find? (!isPortable ·) = some r := by
      simpa [Bytes.IsPortable, ← Option.isSome_iff_exists] using hportable
    rw [hr] at hread
    exact ⟨_, hread⟩

/-! ## Numbers -/

/-- What stands behind a value: a comma or the end of its line. -/
def Delimited (rest : Bytes) : Prop := ∃ b more, rest = b :: more ∧ (b = 0x2C ∨ b = 0x0A)

def NoDigit (rest : Bytes) : Prop := ∀ b, rest.head? = some b → Bytes.isDigit b = false

def IsDigits (text : Bytes) : Prop := text ≠ [] ∧ ∀ b ∈ text, Bytes.isDigit b = true

inductive IsFraction : Bytes → Prop where
  | none : IsFraction []
  | point {ds : Bytes} (h : IsDigits ds) : IsFraction (0x2E :: ds)

inductive IsExponent : Bytes → Prop where
  | none : IsExponent []
  | power {sign : UInt8} {ds : Bytes} (hsign : sign = 0x2B ∨ sign = 0x2D) (h : IsDigits ds) :
      IsExponent (0x65 :: sign :: ds)

/-- A number without sign. A zero in front of the point stands alone. -/
inductive IsMagnitude : Bytes → Prop where
  | mk {w f e : Bytes} (hwhole : IsDigits w) (hzero : w.head? = some 0x30 → w = [0x30])
      (hfraction : IsFraction f) (hexponent : IsExponent e) : IsMagnitude (w ++ (f ++ e))

variable {ds w f e rest : Bytes}

theorem digits_append (h : IsDigits ds) (hrest : NoDigit rest) :
    digits (ds ++ rest) = .ok (ds, rest) := by
  have htake : rest.takeWhile Bytes.isDigit = [] ∧ rest.dropWhile Bytes.isDigit = rest := by
    cases rest with
    | nil => exact ⟨rfl, rfl⟩
    | cons b more =>
        have hb := hrest b rfl
        simp [hb]
  rw [digits, List.takeWhile_append_of_pos h.2, List.dropWhile_append_of_pos h.2, htake.1, htake.2,
    List.append_nil, if_neg (by simpa using h.1)]

theorem whole_append (h : IsDigits w) (hzero : w.head? = some 0x30 → w = [0x30])
    (hrest : NoDigit rest) : whole (w ++ rest) = .ok (w, rest) := by
  by_cases hfirst : w.head? = some 0x30
  · rw [hzero hfirst]
    rfl
  · have hplain : whole (w ++ rest) = digits (w ++ rest) := by
      unfold whole
      split
      · next hsplit =>
          obtain ⟨d, more, rfl⟩ := List.exists_cons_of_ne_nil h.1
          cases hsplit
          exact absurd rfl hfirst
      · rfl
    rw [hplain, digits_append h hrest]

theorem Delimited.noDigit (h : Delimited rest) : NoDigit rest := by
  obtain ⟨b, more, rfl, rfl | rfl⟩ := h <;> rintro c hc <;> cases hc <;> rfl

theorem IsExponent.noDigit (h : IsExponent e) (hrest : Delimited rest) : NoDigit (e ++ rest) := by
  cases h with
  | none => exact hrest.noDigit
  | power hsign hdigits =>
      intro b hb
      cases hb
      rfl

theorem IsFraction.noDigit (h : IsFraction f) (hrest : NoDigit rest) : NoDigit (f ++ rest) := by
  cases h with
  | none => exact hrest
  | point hdigits =>
      intro b hb
      cases hb
      rfl

theorem fraction_append (h : IsFraction f) (hexponent : IsExponent e) (hrest : Delimited rest) :
    fraction (f ++ (e ++ rest)) = .ok (f, e ++ rest) := by
  have hnext := hexponent.noDigit hrest
  cases h with
  | none =>
      cases hexponent with
      | none => obtain ⟨b, more, rfl, rfl | rfl⟩ := hrest <;> rfl
      | power hsign hdigits => rfl
  | point hdigits =>
      rw [List.cons_append, fraction, digits_append hdigits hnext]
      rfl

theorem exponent_append (h : IsExponent e) (hrest : Delimited rest) :
    exponent (e ++ rest) = .ok (e, rest) := by
  cases h with
  | none => obtain ⟨b, more, rfl, rfl | rfl⟩ := hrest <;> rfl
  | @power sign ds hsign hdigits =>
      have hread := digits_append hdigits hrest.noDigit
      rcases hsign with rfl | rfl <;>
        simp [exponent, hread, Except.map]

theorem unsigned_append {text : Bytes} (h : IsMagnitude text) (hrest : Delimited rest) :
    unsigned (text ++ rest) = .ok (text, rest) := by
  cases h with
  | @mk w f e hwhole hzero hfraction hexponent =>
      have hnext := hfraction.noDigit (hexponent.noDigit hrest)
      rw [List.append_assoc, List.append_assoc, unsigned, whole_append hwhole hzero hnext]
      simp only [fraction_append hfraction hexponent hrest, exponent_append hexponent hrest]
      simp [Except.map]

/-! ## Values -/

attribute [local simp] value fields

theorem value_space (fuel depth : Nat) (text : Bytes) :
    value (fuel + 1) depth (0x20 :: text) = value (fuel + 1) depth text := by
  have hskip : skipBlanks (0x20 :: text) = skipBlanks text := rfl
  rw [value, value, hskip]

theorem fields_skipBlanks (fuel depth : Nat) (done : List (Bytes × Document)) (text : Bytes) :
    fields (fuel + 1) depth done (skipBlanks text) = fields (fuel + 1) depth done text := by
  have hskip : skipBlanks (skipBlanks text) = skipBlanks text := List.dropWhile_idempotent _ text
  rw [fields, fields, hskip]

theorem skipBlanks_lineFeed (text : Bytes) : skipBlanks (0x0A :: text) = skipBlanks text := rfl

theorem fields_lineFeed (fuel depth : Nat) (done : List (Bytes × Document)) (text : Bytes) :
    fields (fuel + 1) depth done (0x0A :: text) = fields (fuel + 1) depth done text := by
  rw [← fields_skipBlanks, skipBlanks_lineFeed, fields_skipBlanks]

/-- An object that does not end at once is read field by field. -/
theorem value_object {b : UInt8} {text more : Bytes} (hfirst : skipBlanks text = b :: more)
    (hb : b ≠ 0x7D) (fuel : Nat) :
    value (fuel + 2) 0 (0x7B :: text) = fields (fuel + 1) 1 [] text := by
  have hskip : skipBlanks (0x7B :: text) = 0x7B :: text := rfl
  have hdepth : ¬ (0 : Nat) = maxDepth := by decide
  rw [← fields_skipBlanks, hfirst]
  simp [hskip, hdepth, hfirst, hb]

theorem word_append (name : String) (d : Document) (expected rest : Bytes) :
    word name d expected (expected ++ rest) = .ok (d, rest) := by
  induction expected with
  | nil => rfl
  | cons b expected ih => rw [List.cons_append, word, if_pos rfl, ih]

theorem value_null (fuel depth : Nat) (rest : Bytes) :
    value (fuel + 1) depth (utf8 "null" ++ rest) = .ok (.null, rest) := by
  have hsplit : utf8 "null" ++ rest = 0x6E :: (utf8 "ull" ++ rest) := rfl
  have hskip : skipBlanks (0x6E :: (utf8 "ull" ++ rest)) = 0x6E :: (utf8 "ull" ++ rest) := rfl
  simp [hsplit, hskip, Bytes.isDigit, word_append]

theorem value_boolean (b : Bool) (fuel depth : Nat) (rest : Bytes) :
    value (fuel + 1) depth (Value.ofBool b ++ rest) = .ok (.boolean b, rest) := by
  cases b with
  | false =>
      have hsplit : Value.ofBool false ++ rest = 0x66 :: (utf8 "alse" ++ rest) := rfl
      have hskip : skipBlanks (0x66 :: (utf8 "alse" ++ rest)) = 0x66 :: (utf8 "alse" ++ rest) := rfl
      simp [hsplit, hskip, Bytes.isDigit, word_append]
  | true =>
      have hsplit : Value.ofBool true ++ rest = 0x74 :: (utf8 "rue" ++ rest) := rfl
      have hskip : skipBlanks (0x74 :: (utf8 "rue" ++ rest)) = 0x74 :: (utf8 "rue" ++ rest) := rfl
      simp [hsplit, hskip, Bytes.isDigit, word_append]

/-- A value that starts as a number does. -/
theorem value_number {b : UInt8} (hb : b = 0x2D ∨ Bytes.isDigit b = true) (fuel depth : Nat)
    (behind : Bytes) : value (fuel + 1) depth (b :: behind) = number (b :: behind) := by
  have hblank : isBlankByte b = false := by
    rcases hb with rfl | hdigit
    · rfl
    · rw [← Bool.not_eq_true]
      intro hblank
      simp only [isBlankByte, Bool.or_eq_true, decide_eq_true_eq] at hblank
      rcases hblank with ((rfl | rfl) | rfl) | rfl <;> cases hdigit
  have hother : b ≠ 0x7B ∧ b ≠ 0x5B ∧ b ≠ 0x22 := by
    refine ⟨?_, ?_, ?_⟩ <;>
      · rintro rfl
        revert hb
        decide
  have hskip : skipBlanks (b :: behind) = b :: behind := by
    rw [skipBlanks, List.dropWhile_cons_of_neg (by simp [hblank])]
  simp [hskip, hother, hb]

theorem IsMagnitude.starts {text : Bytes} (h : IsMagnitude text) :
    ∃ b more, text = b :: more ∧ Bytes.isDigit b = true := by
  cases h with
  | @mk w f e hwhole hzero hfraction hexponent =>
      obtain ⟨b, more, rfl⟩ := List.exists_cons_of_ne_nil hwhole.1
      exact ⟨b, _, rfl, hwhole.2 b List.mem_cons_self⟩

theorem value_magnitude {text : Bytes} (h : IsMagnitude text) (hrest : Delimited rest)
    (fuel depth : Nat) : ∃ d, value (fuel + 1) depth (text ++ rest) = .ok (d, rest) := by
  have hread := unsigned_append h hrest
  obtain ⟨b, more, rfl, hdigit⟩ := h.starts
  rw [List.cons_append] at hread ⊢
  rw [value_number (.inr hdigit), number, hread]
  · exact ⟨_, rfl⟩
  · rintro behind hminus
    cases hminus
    cases hdigit

theorem value_negative {text : Bytes} (h : IsMagnitude text) (hrest : Delimited rest)
    (fuel depth : Nat) : ∃ d, value (fuel + 1) depth (0x2D :: text ++ rest) = .ok (d, rest) := by
  have hread := unsigned_append h hrest
  rw [List.cons_append, value_number (.inl rfl), number]
  simp only [hread]
  exact ⟨_, rfl⟩

/-- A value is read and leaves `rest` if a condition holds, and is not read otherwise. -/
structure ReadsIf (P : Prop) (r : Reader Document) (rest : Bytes) : Prop where
  read : P → ∃ d, r = .ok (d, rest)
  fault : ¬ P → ∃ fault, r = .error fault

theorem ReadsIf.of_read {P : Prop} {r : Reader Document} (hP : P) (h : ∃ d, r = .ok (d, rest)) :
    ReadsIf P r rest :=
  ⟨fun _ => h, fun hnot => absurd hP hnot⟩

/-- A quoted text is a value exactly if it is portable. -/
theorem value_quoted (text rest : Bytes) (fuel depth : Nat) :
    ReadsIf text.IsPortable (value (fuel + 1) depth (text.quoted ++ rest)) rest := by
  have hsplit : text.quoted ++ rest =
      0x22 :: (text.runes.flatMap Quoted.rune ++ Bytes.quote :: rest) := by
    simp [Bytes.quoted, Bytes.quote]
  have hvalue : value (fuel + 1) depth (text.quoted ++ rest) =
      (string ((text.runes.flatMap Quoted.rune ++ Bytes.quote :: rest).length + 1) []
        (text.runes.flatMap Quoted.rune ++ Bytes.quote :: rest)).map
          fun read => (Document.text read.1, read.2) := by
    rw [hsplit]
    generalize text.runes.flatMap Quoted.rune ++ Bytes.quote :: rest = behind
    have hskip : skipBlanks (0x22 :: behind) = 0x22 :: behind := rfl
    simp [hskip]
  obtain ⟨hread, hfault⟩ := string_quoted text rest
  rw [hvalue]
  constructor
  · intro hportable
    rw [hread hportable]
    exact ⟨.text text, rfl⟩
  · intro hportable
    obtain ⟨fault, h⟩ := hfault hportable
    rw [h]
    exact ⟨fault, rfl⟩

/-! ## Objects -/

/-- The reader takes an object, and behind it stand only blanks. -/
def IsObject (text : Bytes) : Prop :=
  ∃ members rest, value (text.length + 1) 0 text = .ok (.record members, rest) ∧
    skipBlanks rest = []

end JsonText

end Scribe
