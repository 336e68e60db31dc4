import Mathlib
import Scribe.Text.Rune

/-!
# Runes of a text and of its parts

A byte of ASCII is a rune of its own wherever it stands: no sequence of bytes includes it, and none
reads as it. So a text may be taken apart in front of such a byte. A character reads back from the
bytes that spell it, whatever follows them. So a text may also be taken apart behind characters.
-/

namespace Scribe

namespace Rune

def ascii (b : UInt8) : Rune := ⟨Char.ofNat b.toNat, [b]⟩

theorem first_ascii {b : UInt8} (h : b < 0x80) (rest : Bytes) : first b rest = (ascii b, rest) := by
  unfold first
  rw [if_pos h]
  rfl

theorem not_ascii {b : UInt8} (h : 0x80 ≤ b.toNat) : ¬ b < 0x80 :=
  UInt8.not_lt.mpr (UInt8.le_iff_toNat_le.mpr h)

theorem not_isContinuation {q : UInt8} (h : q < 0x80) : isContinuation q = false := by
  have hq : q.toNat < 0x80 := UInt8.lt_iff_toNat_lt.mp h
  simp only [isContinuation, UInt8.le_iff_toNat_le, UInt8.reduceToNat, Bool.and_eq_false_imp,
    decide_eq_true_eq, decide_eq_false_iff_not, Nat.not_le]
  omega

theorem sequenceLength_eq_some_iff {b : UInt8} {n : Nat} : sequenceLength? b = some n ↔
    n = 2 ∧ 0xC2 ≤ b.toNat ∧ b.toNat ≤ 0xDF ∨ n = 3 ∧ 0xE0 ≤ b.toNat ∧ b.toNat ≤ 0xEF ∨
      n = 4 ∧ 0xF0 ≤ b.toNat ∧ b.toNat ≤ 0xF4 := by
  unfold sequenceLength?
  simp only [Bool.and_eq_true, decide_eq_true_eq, UInt8.le_iff_toNat_le, UInt8.reduceToNat]
  split
  · simp only [Option.some.injEq]
    omega
  · split
    · simp only [Option.some.injEq]
      omega
    · split
      · simp only [Option.some.injEq]
        omega
      · simp only [reduceCtorEq, false_iff]
        omega

theorem isContinuation_iff {c : UInt8} :
    isContinuation c = true ↔ 0x80 ≤ c.toNat ∧ c.toNat ≤ 0xBF := by
  simp [isContinuation, UInt8.le_iff_toNat_le]

/-- What a second byte is for: the shortest form only, no surrogates, nothing too large. -/
theorem mayFollow_iff {b c : UInt8} : mayFollow b c = true ↔
    0x80 ≤ c.toNat ∧ c.toNat ≤ 0xBF ∧ (b.toNat = 0xE0 → 0xA0 ≤ c.toNat) ∧
      (b.toNat = 0xED → c.toNat ≤ 0x9F) ∧ (b.toNat = 0xF0 → 0x90 ≤ c.toNat) ∧
      (b.toNat = 0xF4 → c.toNat ≤ 0x8F) := by
  have hb : ∀ lead : UInt8, b = lead ↔ b.toNat = lead.toNat := fun lead => UInt8.toNat_inj.symm
  unfold mayFollow
  simp only [hb, isContinuation, UInt8.le_iff_toNat_le, UInt8.reduceToNat,
    Bool.ite_eq_true_distrib, Bool.and_eq_true, decide_eq_true_eq]
  split
  · omega
  · split
    · omega
    · split
      · omega
      · split <;> omega

theorem not_mayFollow {q : UInt8} (h : isContinuation q = false) (lead : UInt8) :
    mayFollow lead q = false := by
  rw [Bool.eq_false_iff] at h ⊢
  intro hfollow
  have hrange := mayFollow_iff.mp hfollow
  exact h (isContinuation_iff.mpr ⟨hrange.1, hrange.2.1⟩)

/-- The forms that the first rune of a text has. -/
inductive FirstForm (b : UInt8) : Bytes → Rune × Bytes → Prop where
  | ascii {rest : Bytes} (hb : b < 0x80) : FirstForm b rest (ascii b, rest)
  | two {c : UInt8} {rest : Bytes} (hb : 0xC2 ≤ b.toNat ∧ b.toNat ≤ 0xDF)
      (hc : mayFollow b c = true) :
      FirstForm b (c :: rest) (⟨Char.ofNat (b.toNat % 32 * 64 + tailBits c), [b, c]⟩, rest)
  | three {c d : UInt8} {rest : Bytes} (hb : 0xE0 ≤ b.toNat ∧ b.toNat ≤ 0xEF)
      (hc : mayFollow b c = true) (hd : isContinuation d = true) :
      FirstForm b (c :: d :: rest)
        (⟨Char.ofNat ((b.toNat % 16 * 64 + tailBits c) * 64 + tailBits d), [b, c, d]⟩, rest)
  | four {c d e : UInt8} {rest : Bytes} (hb : 0xF0 ≤ b.toNat ∧ b.toNat ≤ 0xF4)
      (hc : mayFollow b c = true) (hd : isContinuation d = true) (he : isContinuation e = true) :
      FirstForm b (c :: d :: e :: rest)
        (⟨Char.ofNat (((b.toNat % 8 * 64 + tailBits c) * 64 + tailBits d) * 64 + tailBits e),
          [b, c, d, e]⟩, rest)
  | malformed {rest : Bytes} (hb : ¬ b < 0x80) : FirstForm b rest (malformed b, rest)

theorem first_form (b : UInt8) (rest : Bytes) : FirstForm b rest (first b rest) := by
  unfold first
  split
  · next hb => exact .ascii hb
  · next hb =>
      split
      · next hlength =>
          have hlead := sequenceLength_eq_some_iff.mp hlength
          split
          · next hc => exact .two (by omega) hc
          · exact .malformed hb
      · next hlength =>
          have hlead := sequenceLength_eq_some_iff.mp hlength
          split
          · next hmore =>
              rw [Bool.and_eq_true] at hmore
              exact .three (by omega) hmore.1 hmore.2
          · exact .malformed hb
      · next hlength =>
          have hlead := sequenceLength_eq_some_iff.mp hlength
          split
          · next hmore =>
              rw [Bool.and_eq_true, Bool.and_eq_true] at hmore
              exact .four (by omega) hmore.1.1 hmore.1.2 hmore.2
          · exact .malformed hb
      · exact .malformed hb

/-- The first rune of a text does not reach over a byte behind it that continues no character. -/
theorem first_append {q : UInt8} (hcontinue : isContinuation q = false) (b : UInt8)
    (text rest : Bytes) :
    first b (text ++ q :: rest) = ((first b text).1, (first b text).2 ++ q :: rest) := by
  have hfollow := not_mayFollow hcontinue b
  unfold first
  split
  · rfl
  · cases hlen : sequenceLength? b with
    | none => rfl
    | some n =>
        -- The sequence is whole within the text, or it is cut off by the byte behind it.
        rcases sequenceLength_eq_some_iff.mp hlen with ⟨rfl, -⟩ | ⟨rfl, -⟩ | ⟨rfl, -⟩
        · rcases text with _ | ⟨c, text⟩
          · simp [hfollow]
          · simp only [List.cons_append]
            split <;> rfl
        · rcases text with _ | ⟨c, _ | ⟨d, text⟩⟩
          · cases rest <;> simp [hfollow]
          · simp [hcontinue]
          · simp only [List.cons_append]
            split <;> rfl
        · rcases text with _ | ⟨c, _ | ⟨d, _ | ⟨e, text⟩⟩⟩
          · rcases rest with _ | ⟨_, _ | ⟨_, rest⟩⟩ <;> simp [hfollow]
          · rcases rest with _ | ⟨_, rest⟩ <;> simp [hcontinue]
          · simp [hcontinue]
          · simp only [List.cons_append]
            split <;> rfl

theorem toNat_ofNat_of_valid {n : Nat} (h : n < 0xD800 ∨ 0xDFFF < n ∧ n < 0x110000) :
    (Char.ofNat n).toNat = n := by
  have hvalid : n.isValidChar := h
  simp only [Char.ofNat, dif_pos hvalid]
  rfl

theorem ascii_toNat (b : UInt8) : (ascii b).char.toNat = b.toNat :=
  toNat_ofNat_of_valid (.inl (Nat.lt_trans b.toNat_lt (by decide)))

theorem first_char_ascii {b : UInt8} {rest : Bytes} (h : (first b rest).1.char.toNat < 0x80) :
    b < 0x80 := by
  have hform := first_form b rest
  generalize first b rest = r at h hform
  cases hform with
  | ascii hb => exact hb
  | two hb hc =>
      have hc' := mayFollow_iff.mp hc
      simp only [tailBits] at h
      rw [toNat_ofNat_of_valid (by omega)] at h
      omega
  | three hb hc hd =>
      have hc' := mayFollow_iff.mp hc
      have hd' := isContinuation_iff.mp hd
      simp only [tailBits] at h
      rw [toNat_ofNat_of_valid (by omega)] at h
      omega
  | four hb hc hd he =>
      have hc' := mayFollow_iff.mp hc
      simp only [tailBits] at h
      rw [toNat_ofNat_of_valid (by omega)] at h
      omega
  | malformed hb => simp [malformed, replacement] at h

/-- A byte of ASCII in a rune is the whole rune. -/
theorem first_eq_ascii {b c : UInt8} {rest : Bytes} (hmem : c ∈ (first b rest).1.bytes)
    (hc : c < 0x80) : (first b rest).1 = ascii c := by
  have hwide : ∀ d : UInt8, 0x80 ≤ d.toNat → c ≠ d := by
    rintro d hd rfl
    have hnat : c.toNat < 0x80 := UInt8.lt_iff_toNat_lt.mp hc
    omega
  have hform := first_form b rest
  generalize first b rest = r at hmem hform
  cases hform with
  | ascii hb =>
      cases List.mem_singleton.mp hmem
      rfl
  | two hb hsecond =>
      have h := mayFollow_iff.mp hsecond
      simp [hwide b (by omega), hwide _ h.1] at hmem
  | three hb hsecond hd =>
      have h := mayFollow_iff.mp hsecond
      have h' := isContinuation_iff.mp hd
      simp [hwide b (by omega), hwide _ h.1, hwide _ h'.1] at hmem
  | four hb hsecond hd he =>
      have h := mayFollow_iff.mp hsecond
      have h' := isContinuation_iff.mp hd
      have h'' := isContinuation_iff.mp he
      simp [hwide b (by omega), hwide _ h.1, hwide _ h'.1, hwide _ h''.1] at hmem
  | malformed hb =>
      cases List.mem_singleton.mp hmem
      exact absurd hc hb

/-! ### Characters -/

theorem first_two {b c : UInt8} (hb : 0xC2 ≤ b.toNat ∧ b.toNat ≤ 0xDF)
    (hc : mayFollow b c = true) (rest : Bytes) :
    first b (c :: rest) =
      (⟨Char.ofNat (b.toNat % 32 * 64 + tailBits c), [b, c]⟩, rest) := by
  have hlength : sequenceLength? b = some 2 := sequenceLength_eq_some_iff.mpr (.inl ⟨rfl, hb⟩)
  unfold first
  simp only [if_neg (not_ascii (show 0x80 ≤ b.toNat by omega)), hlength, hc, if_true]

theorem first_three {b c d : UInt8} (hb : 0xE0 ≤ b.toNat ∧ b.toNat ≤ 0xEF)
    (hc : mayFollow b c = true) (hd : isContinuation d = true) (rest : Bytes) :
    first b (c :: d :: rest) =
      (⟨Char.ofNat ((b.toNat % 16 * 64 + tailBits c) * 64 + tailBits d), [b, c, d]⟩, rest) := by
  have hlength : sequenceLength? b = some 3 :=
    sequenceLength_eq_some_iff.mpr (.inr (.inl ⟨rfl, hb⟩))
  unfold first
  simp only [if_neg (not_ascii (show 0x80 ≤ b.toNat by omega)), hlength, hc, hd,
    Bool.and_self, if_true]

theorem first_four {b c d e : UInt8} (hb : 0xF0 ≤ b.toNat ∧ b.toNat ≤ 0xF4)
    (hc : mayFollow b c = true) (hd : isContinuation d = true) (he : isContinuation e = true)
    (rest : Bytes) :
    first b (c :: d :: e :: rest) =
      (⟨Char.ofNat (((b.toNat % 8 * 64 + tailBits c) * 64 + tailBits d) * 64 + tailBits e),
        [b, c, d, e]⟩, rest) := by
  have hlength : sequenceLength? b = some 4 :=
    sequenceLength_eq_some_iff.mpr (.inr (.inr ⟨rfl, hb⟩))
  unfold first
  simp only [if_neg (not_ascii (show 0x80 ≤ b.toNat by omega)), hlength, hc, hd, he,
    Bool.and_self, if_true]

theorem first_utf8Char (c : Char) (rest : Bytes) :
    ∃ b tail, utf8Char c = b :: tail ∧ first b (tail ++ rest) = (ofChar c, rest) := by
  have hvalid : c.toNat < 0xD800 ∨ 0xDFFF < c.toNat ∧ c.toNat < 0x110000 := c.valid
  have hspelling : utf8Char c = String.utf8EncodeChar c := rfl
  unfold String.utf8EncodeChar at hspelling
  simp only [Char.toNat_val] at hspelling
  generalize hv : c.toNat = v at hvalid hspelling
  have hchar : ∀ {n}, n = v → Char.ofNat n = c := fun hn => by rw [hn, ← hv, Char.ofNat_toNat]
  split at hspelling
  · have hb := UInt8.toNat_ofNat_of_lt' (show v < 256 by omega)
    have hascii : UInt8.ofNat v < 0x80 :=
      UInt8.lt_iff_toNat_lt.mpr (hb.trans_lt (show v < 0x80 by omega))
    refine ⟨_, _, hspelling, ?_⟩
    rw [List.nil_append, first_ascii hascii, ascii, hchar hb, ofChar, hspelling]
  · split at hspelling
    · have hb := UInt8.toNat_ofNat_of_lt' (show v / 64 % 32 + 192 < 256 by omega)
      have hx := UInt8.toNat_ofNat_of_lt' (show v % 64 + 128 < 256 by omega)
      refine ⟨_, _, hspelling, ?_⟩
      rw [List.singleton_append,
        first_two (by omega) (mayFollow_iff.mpr (by omega)), hchar (by simp only [tailBits]; omega),
        ofChar, hspelling]
    · split at hspelling
      · have hb := UInt8.toNat_ofNat_of_lt' (show v / 4096 % 16 + 224 < 256 by omega)
        have hx := UInt8.toNat_ofNat_of_lt' (show v / 64 % 64 + 128 < 256 by omega)
        have hy := UInt8.toNat_ofNat_of_lt' (show v % 64 + 128 < 256 by omega)
        refine ⟨_, _, hspelling, ?_⟩
        rw [List.cons_append, List.singleton_append,
          first_three (by omega) (mayFollow_iff.mpr (by omega)) (isContinuation_iff.mpr (by omega)),
          hchar (by simp only [tailBits]; omega), ofChar, hspelling]
      · have hb := UInt8.toNat_ofNat_of_lt' (show v / 262144 % 8 + 240 < 256 by omega)
        have hx := UInt8.toNat_ofNat_of_lt' (show v / 4096 % 64 + 128 < 256 by omega)
        have hy := UInt8.toNat_ofNat_of_lt' (show v / 64 % 64 + 128 < 256 by omega)
        have hz := UInt8.toNat_ofNat_of_lt' (show v % 64 + 128 < 256 by omega)
        refine ⟨_, _, hspelling, ?_⟩
        rw [List.cons_append, List.cons_append, List.singleton_append,
          first_four (by omega) (mayFollow_iff.mpr (by omega)) (isContinuation_iff.mpr (by omega))
            (isContinuation_iff.mpr (by omega)),
          hchar (by simp only [tailBits]; omega), ofChar, hspelling]

/-! ### Beginnings of a text -/

/-- The first rune of a text is that of any beginning of the text which reaches over it. -/
theorem first_of_append {b : UInt8} {text rest after : Bytes} {r : Rune}
    (h : first b (text ++ rest) = (r, after ++ rest)) : first b text = (r, after) := by
  have hform := first_form b (text ++ rest)
  rw [h] at hform
  generalize hwhole : text ++ rest = whole at hform
  generalize hresult : (r, after ++ rest) = result at hform
  cases hform with
  | ascii hb =>
      obtain ⟨rfl, hafter⟩ := Prod.mk.inj hresult
      rw [first_ascii hb, List.append_cancel_right (hwhole.trans hafter.symm)]
  | two hb hc =>
      obtain ⟨rfl, rfl⟩ := Prod.mk.inj hresult
      rw [List.append_cancel_right (hwhole.trans (List.cons_append ..).symm), first_two hb hc]
  | three hb hc hd =>
      obtain ⟨rfl, rfl⟩ := Prod.mk.inj hresult
      rw [← List.cons_append, ← List.cons_append] at hwhole
      rw [List.append_cancel_right hwhole, first_three hb hc hd]
  | four hb hc hd he =>
      obtain ⟨rfl, rfl⟩ := Prod.mk.inj hresult
      rw [← List.cons_append, ← List.cons_append, ← List.cons_append] at hwhole
      rw [List.append_cancel_right hwhole, first_four hb hc hd he]
  | malformed hb =>
      obtain ⟨rfl, hafter⟩ := Prod.mk.inj hresult
      obtain rfl : text = after := List.append_cancel_right (hwhole.trans hafter.symm)
      -- A sequence within the beginning would be one in the whole text.
      have hnone : ∀ {s : Rune} {more : Bytes}, first b (text ++ rest) = (s, more) →
          s.bytes = [b] := by
        intro s more hs
        rw [h] at hs
        obtain ⟨rfl, -⟩ := Prod.mk.inj hs
        rfl
      have hpart := first_form b text
      generalize first b text = found at hpart
      cases hpart with
      | ascii hascii => exact absurd hascii hb
      | two hb hc => exact absurd (hnone (first_two hb hc _)) (by simp)
      | three hb hc hd => exact absurd (hnone (first_three hb hc hd _)) (by simp)
      | four hb hc hd he => exact absurd (hnone (first_four hb hc hd he _)) (by simp)
      | malformed _ => rfl

/-! ### Runes as characters -/

theorem eq_ofNat {b : UInt8} {n : Nat} (h : b.toNat = n) : UInt8.ofNat n = b := by
  rw [← h, UInt8.ofNat_toNat]

theorem ofChar_ofNat {n : Nat} (hvalid : n < 0xD800 ∨ 0xDFFF < n ∧ n < 0x110000) {bytes : Bytes}
    (h : bytes =
      if n ≤ 0x7F then [UInt8.ofNat n]
      else if n ≤ 0x7FF then [UInt8.ofNat (n / 64 % 32 + 192), UInt8.ofNat (n % 64 + 128)]
      else if n ≤ 0xFFFF then
        [UInt8.ofNat (n / 4096 % 16 + 224), UInt8.ofNat (n / 64 % 64 + 128),
          UInt8.ofNat (n % 64 + 128)]
      else
        [UInt8.ofNat (n / 262144 % 8 + 240), UInt8.ofNat (n / 4096 % 64 + 128),
          UInt8.ofNat (n / 64 % 64 + 128), UInt8.ofNat (n % 64 + 128)]) :
    ofChar (Char.ofNat n) = ⟨Char.ofNat n, bytes⟩ := by
  have hspelling : utf8Char (Char.ofNat n) = String.utf8EncodeChar (Char.ofNat n) := rfl
  unfold String.utf8EncodeChar at hspelling
  simp only [Char.toNat_val, toNat_ofNat_of_valid hvalid] at hspelling
  rw [ofChar, hspelling, h]

/-- The first rune of a text is a malformed byte, or it is spelled as its character is. -/
theorem first_cases (b : UInt8) (rest : Bytes) :
    ¬ b < 0x80 ∧ (first b rest).1 = malformed b ∨
      (first b rest).1 = ofChar (first b rest).1.char := by
  have hform := first_form b rest
  generalize first b rest = r at hform
  cases hform with
  | ascii hb =>
      have hsmall : b.toNat < 0x80 := UInt8.lt_iff_toNat_lt.mp hb
      right
      refine (ofChar_ofNat (.inl (by omega)) ?_).symm
      rw [if_pos (by omega), UInt8.ofNat_toNat]
  | @two c _ hb hc =>
      have hc' := mayFollow_iff.mp hc
      right
      generalize hn : _ * 64 + tailBits _ = n
      simp only [tailBits] at hn
      refine (ofChar_ofNat (by omega) ?_).symm
      rw [if_neg (by omega), if_pos (by omega), eq_ofNat (b := b) (by omega),
        eq_ofNat (b := c) (by omega)]
  | @three c d _ hb hc hd =>
      have hc' := mayFollow_iff.mp hc
      have hd' := isContinuation_iff.mp hd
      right
      generalize hn : _ * 64 + tailBits _ = n
      simp only [tailBits] at hn
      refine (ofChar_ofNat (by omega) ?_).symm
      rw [if_neg (by omega), if_neg (by omega), if_pos (by omega), eq_ofNat (b := b) (by omega),
        eq_ofNat (b := c) (by omega), eq_ofNat (b := d) (by omega)]
  | @four c d e _ hb hc hd he =>
      have hc' := mayFollow_iff.mp hc
      have hd' := isContinuation_iff.mp hd
      have he' := isContinuation_iff.mp he
      right
      generalize hn : _ * 64 + tailBits _ = n
      simp only [tailBits] at hn
      refine (ofChar_ofNat (by omega) ?_).symm
      rw [if_neg (by omega), if_neg (by omega), if_neg (by omega), eq_ofNat (b := b) (by omega),
        eq_ofNat (b := c) (by omega), eq_ofNat (b := d) (by omega), eq_ofNat (b := e) (by omega)]
  | malformed hb => exact .inl ⟨hb, rfl⟩

end Rune

namespace Bytes

theorem runes_ascii_cons {b : UInt8} (h : b < 0x80) (rest : Bytes) :
    runes (b :: rest) = Rune.ascii b :: runes rest := by
  rw [runes_cons, Rune.first_ascii h]

theorem runes_ascii_append (text : Bytes) (h : ∀ b ∈ text, b < 0x80) (rest : Bytes) :
    runes (text ++ rest) = text.map Rune.ascii ++ runes rest := by
  induction text with
  | nil => rfl
  | cons b text ih =>
      rw [List.cons_append, runes_ascii_cons (h b List.mem_cons_self),
        ih fun c hc => h c (List.mem_cons_of_mem b hc)]
      rfl

theorem ofRunes_ascii (text : Bytes) : ofRunes (text.map Rune.ascii) = text := by
  induction text with
  | nil => rfl
  | cons b text ih =>
      rw [List.map_cons, ofRunes_cons, ih]
      rfl

/-- A text may be taken apart in front of a byte that continues no character. -/
theorem runes_append_start {q : UInt8} (h : Rune.isContinuation q = false) (text rest : Bytes) :
    runes (text ++ q :: rest) = runes text ++ runes (q :: rest) := by
  induction hlen : text.length using Nat.strongRecOn generalizing text with
  | ind n ih =>
      cases text with
      | nil => simp
      | cons b text =>
          have hshorter := Rune.first_rest_length b text
          rw [List.cons_append, runes_cons, Rune.first_append h, runes_cons b text,
            ih _ (by omega) _ rfl, List.cons_append]

/-- A text may be taken apart in front of a byte of ASCII. -/
theorem runes_append {q : UInt8} (h : q < 0x80) (text rest : Bytes) :
    runes (text ++ q :: rest) = runes text ++ runes (q :: rest) :=
  runes_append_start (Rune.not_isContinuation h) text rest

@[simp] theorem ofChars_append (cs ds : List Char) :
    ofChars (cs ++ ds) = ofChars cs ++ ofChars ds := List.flatMap_append

/-- A text may be taken apart behind whole characters. -/
theorem runes_ofChars_append (cs : List Char) (rest : Bytes) :
    runes (ofChars cs ++ rest) = cs.map Rune.ofChar ++ runes rest := by
  induction cs with
  | nil => rfl
  | cons c cs ih =>
      obtain ⟨b, tail, hspelling, hfirst⟩ := Rune.first_utf8Char c (ofChars cs ++ rest)
      have htext : ofChars (c :: cs) ++ rest = b :: (tail ++ (ofChars cs ++ rest)) := by
        rw [ofChars, List.flatMap_cons, hspelling, List.append_assoc, List.cons_append]
        rfl
      rw [htext, runes_cons, hfirst, ih, List.map_cons, List.cons_append]

theorem chars_ofChars (cs : List Char) : chars (ofChars cs) = cs := by
  have hrunes := runes_ofChars_append cs []
  rw [List.append_nil, runes_nil, List.append_nil] at hrunes
  rw [chars, hrunes, List.map_map]
  exact List.map_id cs

/-- A character more is a longer text. -/
theorem length_ofChars_take_lt {cs : List Char} {n : Nat} (h : n < cs.length) :
    (ofChars (cs.take n)).length < (ofChars cs).length := by
  obtain ⟨b, tail, hspelling, -⟩ := Rune.first_utf8Char cs[n] []
  have hparts : ofChars cs = ofChars (cs.take n) ++ ofChars (cs[n] :: cs.drop (n + 1)) := by
    rw [← ofChars_append, ← List.drop_eq_getElem_cons h, List.take_append_drop]
  have hmore : ofChars (cs[n] :: cs.drop (n + 1)) ≠ [] := by
    rw [ofChars, List.flatMap_cons, hspelling]
    exact List.cons_ne_nil _ _
  rw [hparts, List.length_append]
  exact Nat.lt_add_of_pos_right (List.length_pos_iff.mpr hmore)

/-- A text may be taken apart between any two of its runes. -/
theorem runes_eq_append {text : Bytes} {rs ss : List Rune} (h : text.runes = rs ++ ss) :
    ∃ before after, text = before ++ after ∧ before.runes = rs ∧ after.runes = ss := by
  induction rs generalizing text with
  | nil => exact ⟨[], text, rfl, runes_nil, h⟩
  | cons r rs ih =>
      cases text with
      | nil => simp at h
      | cons b more =>
          rw [runes_cons, List.cons_append, List.cons.injEq] at h
          obtain ⟨hfirst, hmore⟩ := h
          obtain ⟨before, after, hrest, hbefore, hafter⟩ := ih hmore
          have hspelling := Rune.first_spelling b more
          obtain ⟨c, tail, hbytes⟩ :=
            List.exists_cons_of_ne_nil (Rune.first_bytes_ne_nil b more)
          rw [hbytes, List.cons_append, List.cons.injEq] at hspelling
          obtain ⟨rfl, htail⟩ := hspelling
          rw [hrest, ← List.append_assoc] at htail
          refine ⟨c :: (tail ++ before), after, by rw [List.cons_append, htail], ?_, hafter⟩
          have hwhole : Rune.first c (tail ++ before ++ after) = (r, before ++ after) := by
            rw [htail, ← hfirst, ← hrest]
          rw [runes_cons, Rune.first_of_append hwhole, hbefore]

/-- Every rune of a text is the first one of what stands from some place on. -/
theorem exists_first_of_mem {text : Bytes} {r : Rune} (hr : r ∈ text.runes) :
    ∃ before b rest, text = before ++ b :: rest ∧ (Rune.first b rest).1 = r := by
  obtain ⟨rs, ss, hrunes⟩ := List.append_of_mem hr
  obtain ⟨before, after, rfl, -, hafter⟩ := runes_eq_append hrunes
  cases after with
  | nil => simp at hafter
  | cons b rest =>
      rw [runes_cons, List.cons.injEq] at hafter
      exact ⟨before, b, rest, rfl, hafter.1⟩

theorem mem_of_mem_runes {text : Bytes} {r : Rune} (hr : r ∈ text.runes)
    (h : r.char.toNat < 0x80) : ∃ b ∈ text, r = Rune.ascii b := by
  obtain ⟨before, b, rest, rfl, rfl⟩ := exists_first_of_mem hr
  have hb := Rune.first_char_ascii h
  refine ⟨b, by simp, ?_⟩
  rw [Rune.first_ascii hb]

theorem eq_ascii_of_mem_runes {text : Bytes} {r : Rune} {c : UInt8} (hr : r ∈ text.runes)
    (hmem : c ∈ r.bytes) (hc : c < 0x80) : r = Rune.ascii c := by
  obtain ⟨before, b, rest, -, rfl⟩ := exists_first_of_mem hr
  exact Rune.first_eq_ascii hmem hc

theorem bytes_of_char {text : Bytes} {r : Rune} (hr : r ∈ text.runes) {b : UInt8} (hb : b < 0x80)
    (hc : r.char = (Rune.ascii b).char) : r = Rune.ascii b := by
  have hsmall : r.char.toNat < 0x80 := by
    rw [hc, Rune.ascii_toNat]
    exact UInt8.lt_iff_toNat_lt.mp hb
  obtain ⟨c, -, rfl⟩ := mem_of_mem_runes hr hsmall
  have hnat : c.toNat = b.toNat := by rw [← Rune.ascii_toNat c, hc, Rune.ascii_toNat]
  rw [UInt8.toNat_inj.mp hnat]

/-- A byte of ASCII stands in a text where its rune does. -/
theorem mem_runes_ascii {text : Bytes} {b : UInt8} (hb : b < 0x80) :
    Rune.ascii b ∈ text.runes ↔ b ∈ text := by
  constructor
  · intro hmem
    have hsmall : (Rune.ascii b).char.toNat < 0x80 := by
      rw [Rune.ascii_toNat]
      exact UInt8.lt_iff_toNat_lt.mp hb
    obtain ⟨c, hc, heq⟩ := mem_of_mem_runes hmem hsmall
    have hnat : b.toNat = c.toNat := by rw [← Rune.ascii_toNat b, heq, Rune.ascii_toNat]
    rw [UInt8.toNat_inj.mp hnat]
    exact hc
  · intro hmem
    rw [← ofRunes_runes text, ofRunes, List.mem_flatMap] at hmem
    obtain ⟨r, hr, hbyte⟩ := hmem
    rw [eq_ascii_of_mem_runes hr hbyte hb] at hr
    exact hr

/-- The runes of a text that read as a byte of ASCII are its bytes of that value. -/
theorem countP_runes {b : UInt8} (hb : b < 0x80) (text : Bytes) :
    text.runes.countP (·.char == (Rune.ascii b).char) = text.count b := by
  induction hlen : text.length using Nat.strongRecOn generalizing text with
  | ind n ih =>
      by_cases hmem : b ∈ text
      · obtain ⟨before, after, rfl⟩ := List.append_of_mem hmem
        rw [List.length_append, List.length_cons] at hlen
        have hbefore := ih _ (by omega) before rfl
        have hafter := ih _ (by omega) after rfl
        have hone : (Rune.ascii b :: runes after).countP (·.char == (Rune.ascii b).char) =
            (runes after).countP (·.char == (Rune.ascii b).char) + 1 :=
          List.countP_cons_of_pos (beq_self_eq_true _)
        rw [runes_append hb, runes_ascii_cons hb, List.countP_append, hone, hbefore, hafter,
          List.count_append, List.count_cons_self]
      · rw [List.count_eq_zero_of_not_mem hmem, List.countP_eq_zero]
        intro r hr hchar
        rw [bytes_of_char hr hb (beq_iff_eq.mp hchar)] at hr
        exact hmem ((mem_runes_ascii hb).mp hr)

/-- A rune of a text is a malformed byte, or it is spelled as its character is. -/
theorem rune_cases {text : Bytes} {r : Rune} (hr : r ∈ text.runes) :
    (∃ b, ¬ b < 0x80 ∧ r = Rune.malformed b) ∨ r = Rune.ofChar r.char := by
  obtain ⟨before, b, rest, -, rfl⟩ := exists_first_of_mem hr
  exact (Rune.first_cases b rest).imp_left fun h => ⟨b, h⟩

end Bytes

end Scribe
