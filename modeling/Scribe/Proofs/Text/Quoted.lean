import Scribe.Proofs.Decimal.Digits
import Scribe.Proofs.Text.Runes
import Scribe.Text.Quoted

/-!
# Quoted texts read back

A quoted text ends at the first quote that is not escaped, and its escapes say which runes they
stand for. So a text can be told from its quoted form, whatever stands behind it.
-/

namespace Scribe

namespace Bytes

theorem digitValue?_hexDigit {n : Nat} (h : n < 16) : digitValue? (hexDigit n) = some n := by
  have hall : ∀ n : Fin 16, digitValue? (hexDigit n) = some n.val := by decide
  exact hall ⟨n, h⟩

theorem hex_length (n width : Nat) : (hex n width).length = width := by
  induction width generalizing n with
  | zero => rfl
  | succ width ih => rw [hex, List.length_append, ih, List.length_singleton]

theorem digitsValue_hex (n width : Nat) :
    Decimal.digitsValue 16 (hex n width) = n % 16 ^ width := by
  induction width generalizing n with
  | zero => simp [hex, Decimal.digitsValue, Nat.mod_one]
  | succ width ih =>
      have hlast := digitValue?_hexDigit (Nat.mod_lt n (show 0 < 16 by decide))
      rw [hex, Decimal.digitsValue_append_singleton, ih, hlast, Option.getD_some, Nat.pow_succ,
        Nat.mul_comm (16 ^ width), Nat.mod_mul]
      omega

end Bytes

namespace Quoted

/-! ## Reading one rune -/

def width? (letter : UInt8) : Option Nat :=
  if letter = 0x78 then some 2
  else if letter = 0x75 then some 4
  else if letter = 0x55 then some 8
  else none

/-- The character that an escape letter stands for by itself. -/
def control? (letter : UInt8) : Option Char :=
  match letter with
  | 0x61 => some '\x07'
  | 0x62 => some '\x08'
  | 0x74 => some '\t'
  | 0x6E => some '\n'
  | 0x76 => some '\x0B'
  | 0x66 => some '\x0C'
  | 0x72 => some '\r'
  | 0x22 => some '"'
  | 0x5C => some '\\'
  | _ => none

/-- The rune of a number. A byte beyond ASCII is written as such only if it is malformed. -/
def ofCode (letter : UInt8) (n : Nat) : Rune :=
  if letter = 0x78 ∧ 0x80 ≤ n then Rune.malformed (UInt8.ofNat n) else Rune.ofChar (Char.ofNat n)

/-- The rune of an escape without its backslash, and the text behind it. -/
def readEscape? : Bytes → Option (Rune × Bytes)
  | [] => none
  | letter :: rest =>
      match width? letter with
      | some width =>
          some (ofCode letter (Decimal.digitsValue 16 (rest.take width)), rest.drop width)
      | none => (control? letter).map fun c => (Rune.ofChar c, rest)

/-- The rune at the beginning of a quoted text, and the text behind it. -/
def read? : Bytes → Option (Rune × Bytes)
  | [] => none
  | b :: rest =>
      if b = Bytes.quote then none
      else if b = 0x5C then readEscape? rest
      else some (Rune.first b rest)

theorem read?_number {letter : UInt8} {width : Nat} (hwidth : width? letter = some width) (n : Nat)
    (rest : Bytes) :
    read? (0x5C :: letter :: (Bytes.hex n width ++ rest)) =
      some (ofCode letter (n % 16 ^ width), rest) := by
  have hlength := Bytes.hex_length n width
  simp only [read?, readEscape?, hwidth]
  rw [List.take_left' hlength, List.drop_left' hlength, Bytes.digitsValue_hex]
  rfl

theorem char_eq_ofNat {c : Char} {n : Nat} (h : c.toNat = n) : c = Char.ofNat n := by
  rw [← h, Char.ofNat_toNat]

theorem control?_of_letter? {c : Char} {letter : UInt8} (h : letter? c = some letter) :
    width? letter = none ∧ control? letter = some c := by
  unfold letter? at h
  split at h <;> cases h <;> exact ⟨rfl, congrArg some (char_eq_ofNat ‹_›).symm⟩

theorem isMalformed_ofChar (c : Char) : (Rune.ofChar c).isMalformed = false := by
  by_cases h : c = Rune.replacement
  · rw [h]
    decide
  · simp [Rune.isMalformed, Rune.ofChar, h]

theorem read?_printable {c : Char} (h : letter? c = none) (rest : Bytes) :
    read? (utf8Char c ++ rest) = some (Rune.ofChar c, rest) := by
  obtain ⟨b, tail, hspelling, hfirst⟩ := Rune.first_utf8Char c rest
  have hplain : ∀ d : UInt8, d < 0x80 → letter? (Rune.ascii d).char ≠ none → b ≠ d := by
    rintro d hd hletter rfl
    rw [Rune.first_ascii hd, Prod.mk.injEq] at hfirst
    rw [hfirst.1] at hletter
    exact hletter h
  have hquote : b ≠ Bytes.quote := hplain _ (by decide) (by decide)
  have hslash : b ≠ 0x5C := hplain _ (by decide) (by decide)
  rw [hspelling, List.cons_append, read?, if_neg hquote, if_neg hslash, hfirst]

theorem rune_ofChar (c : Char) :
    rune (Rune.ofChar c) =
      match letter? c with
      | some letter => [0x5C, letter]
      | none =>
          if isPrintable c then utf8Char c
          else if c.toNat < 0x80 then 0x5C :: 0x78 :: Bytes.hex c.toNat 2
          else if c.toNat < 0x10000 then 0x5C :: 0x75 :: Bytes.hex c.toNat 4
          else 0x5C :: 0x55 :: Bytes.hex c.toNat 8 := by
  rw [rune, isMalformed_ofChar, if_neg (by decide)]
  rfl

/-- A rune of a text is read from its quoted form. -/
theorem read?_rune {text : Bytes} {r : Rune} (hr : r ∈ text.runes) (rest : Bytes) :
    read? (rune r ++ rest) = some (r, rest) := by
  rcases Bytes.rune_cases hr with ⟨b, hb, rfl⟩ | hchar
  · have hwide : 0x80 ≤ b.toNat := by simpa [UInt8.lt_iff_toNat_lt] using hb
    have hbyte := b.toNat_lt
    have hspelling : rune (Rune.malformed b) ++ rest =
        0x5C :: 0x78 :: (Bytes.hex b.toNat 2 ++ rest) := by
      have hmalformed : (Rune.malformed b).isMalformed = true := rfl
      rw [rune, if_pos hmalformed]
      simp only [Rune.malformed, List.flatMap_singleton]
      rfl
    rw [hspelling, read?_number rfl, Nat.mod_eq_of_lt (by omega), ofCode, if_pos ⟨rfl, hwide⟩,
      UInt8.ofNat_toNat]
  · generalize r.char = c at hchar
    subst hchar
    have hvalid : c.toNat < 0xD800 ∨ 0xDFFF < c.toNat ∧ c.toNat < 0x110000 := c.valid
    rw [rune_ofChar]
    cases hletter : letter? c with
    | some letter =>
        obtain ⟨hwidth, hcontrol⟩ := control?_of_letter? hletter
        simp only [List.cons_append, List.nil_append, read?, readEscape?, hwidth, hcontrol]
        rfl
    | none =>
        simp only
        split
        · exact read?_printable hletter rest
        · split
          · rw [List.cons_append, List.cons_append, read?_number rfl, Nat.mod_eq_of_lt (by omega),
              ofCode, if_neg (by omega), Char.ofNat_toNat]
          · split
            · rw [List.cons_append, List.cons_append, read?_number rfl,
                Nat.mod_eq_of_lt (by omega), ofCode, if_neg (by simp), Char.ofNat_toNat]
            · rw [List.cons_append, List.cons_append, read?_number rfl,
                Nat.mod_eq_of_lt (by omega), ofCode, if_neg (by simp), Char.ofNat_toNat]

/-! ## Bytes -/

theorem isPrintable_ascii {b : UInt8} (h : b < 0x80) :
    isPrintable (Rune.ascii b).char = true ↔ 0x20 ≤ b ∧ b < 0x7F := by
  have hsmall : b.toNat < 128 := UInt8.lt_iff_toNat_lt.mp h
  rw [isPrintable, Rune.ascii_toNat, if_pos hsmall]
  simp [UInt8.le_iff_toNat_le, UInt8.lt_iff_toNat_lt]

/-- The bytes of a rune that prints and needs no escape. -/
theorem plain_of_mem {text : Bytes} {r : Rune} (hr : r ∈ text.runes)
    (hletter : letter? r.char = none) (hprint : isPrintable r.char = true) {b : UInt8}
    (hb : b ∈ r.bytes) :
    b ≠ Bytes.quote ∧ b ≠ 0x5C ∧ ¬ b < 0x20 := by
  by_cases hascii : b < 0x80
  · obtain rfl := Bytes.eq_ascii_of_mem_runes hr hb hascii
    refine ⟨?_, ?_, UInt8.not_lt.mpr ((isPrintable_ascii hascii).mp hprint).1⟩ <;>
      · rintro rfl
        cases hletter
  · have hwide : ∀ {c : UInt8}, c < 0x80 → b ≠ c := by
      rintro c hc rfl
      exact hascii hc
    exact ⟨hwide (by decide), hwide (by decide), fun h => hascii (UInt8.lt_trans h (by decide))⟩

theorem not_control_of_mem_hex {n width : Nat} {b : UInt8} (h : b ∈ Bytes.hex n width) :
    ¬ b < 0x20 := by
  have hdigit : ∀ k < 16, ¬ Bytes.hexDigit k < 0x20 := by decide
  induction width generalizing n with
  | zero => cases h
  | succ width ih =>
      rw [Bytes.hex, List.mem_append, List.mem_singleton] at h
      rcases h with h | rfl
      · exact ih h
      · exact hdigit _ (Nat.mod_lt n (by decide))

theorem not_control_of_mem_rune {text : Bytes} {r : Rune} (hr : r ∈ text.runes) {b : UInt8}
    (hb : b ∈ rune r) : ¬ b < 0x20 := by
  have hescape : ∀ (mark : UInt8) (n width : Nat), ¬ mark < 0x20 →
      b ∈ 0x5C :: mark :: Bytes.hex n width → ¬ b < 0x20 := by
    intro mark n width hmark hmem
    rw [List.mem_cons, List.mem_cons] at hmem
    rcases hmem with rfl | rfl | hmem
    · decide
    · exact hmark
    · exact not_control_of_mem_hex hmem
  rcases Bytes.rune_cases hr with ⟨c, -, rfl⟩ | hchar
  · have hspelling : rune (Rune.malformed c) = 0x5C :: 0x78 :: Bytes.hex c.toNat 2 :=
      congrArg (utf8 "\\x" ++ ·) (List.flatMap_singleton ..)
    rw [hspelling] at hb
    exact hescape _ _ _ (by decide) hb
  · generalize r.char = c at hchar
    subst hchar
    rw [rune_ofChar] at hb
    cases hletter : letter? c with
    | some letter =>
        simp only [hletter, List.mem_cons, List.not_mem_nil, or_false] at hb
        unfold letter? at hletter
        split at hletter <;> cases hletter <;> rcases hb with rfl | rfl <;> decide
    | none =>
        simp only [hletter] at hb
        split at hb
        · next hprint => exact (plain_of_mem hr hletter hprint hb).2.2
        · split at hb
          · exact hescape _ _ _ (by decide) hb
          · split at hb <;> exact hescape _ _ _ (by decide) hb

theorem not_control_of_mem_quoted {text : Bytes} {b : UInt8} (hb : b ∈ text.quoted) :
    ¬ b < 0x20 := by
  have hquote : b ∈ [Bytes.quote] → ¬ b < 0x20 := by
    intro hmem
    rw [List.mem_singleton.mp hmem]
    decide
  rw [Bytes.quoted, List.mem_append, List.mem_append, List.mem_flatMap] at hb
  rcases hb with (hb | ⟨r, hr, hb⟩) | hb
  · exact hquote hb
  · exact not_control_of_mem_rune hr hb
  · exact hquote hb

/-! ## Whole texts -/

theorem runes_injective {text text' tail tail' : Bytes} {rs rs' : List Rune}
    (hrs : ∀ r ∈ rs, r ∈ text.runes) (hrs' : ∀ r ∈ rs', r ∈ text'.runes)
    (h : rs.flatMap rune ++ Bytes.quote :: tail = rs'.flatMap rune ++ Bytes.quote :: tail') :
    rs = rs' ∧ tail = tail' := by
  have hread := congrArg read? h
  induction rs generalizing rs' with
  | nil =>
      cases rs' with
      | nil => exact ⟨rfl, (List.cons.inj h).2⟩
      | cons r' rs' =>
          rw [List.flatMap_cons, List.append_assoc,
            read?_rune (hrs' r' List.mem_cons_self)] at hread
          cases hread
  | cons r rs ih =>
      rw [List.flatMap_cons, List.append_assoc, read?_rune (hrs r List.mem_cons_self)] at hread
      cases rs' with
      | nil => cases hread
      | cons r' rs' =>
          rw [List.flatMap_cons, List.append_assoc,
            read?_rune (hrs' r' List.mem_cons_self)] at hread
          simp only [Option.some.injEq, Prod.mk.injEq] at hread
          obtain ⟨rfl, hrest⟩ := hread
          obtain ⟨rfl, htail⟩ := ih (fun s hs => hrs s (List.mem_cons_of_mem r hs))
            (fun s hs => hrs' s (List.mem_cons_of_mem r hs)) hrest (congrArg read? hrest)
          exact ⟨rfl, htail⟩

end Quoted

/-- A quoted text tells the text, and where it ends. -/
theorem Bytes.quoted_injective {text text' tail tail' : Bytes}
    (h : text.quoted ++ tail = text'.quoted ++ tail') : text = text' ∧ tail = tail' := by
  simp only [Bytes.quoted, List.append_assoc, List.cons_append, List.nil_append,
    List.cons.injEq, true_and] at h
  obtain ⟨hrunes, htail⟩ := Quoted.runes_injective (fun _ hr => hr) (fun _ hr => hr) h
  refine ⟨?_, htail⟩
  rw [← Bytes.ofRunes_runes text, hrunes, Bytes.ofRunes_runes]

end Scribe
