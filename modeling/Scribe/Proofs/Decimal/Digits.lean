import Mathlib
import Scribe.Decimal.Layout
import Scribe.Decimal.Read
import Scribe.Proofs.Text.Pieces

/-!
# Digits and their value

The digits of a number, the places in front of and behind a point, and the magnitude that they are
read as.
-/

namespace Scribe

theorem utf8_ofList (cs : List Char) : utf8 (String.ofList cs) = cs.flatMap utf8Char := by
  simp [utf8, String.ofList, List.utf8Encode]
  rfl

namespace Bytes

def digit (n : Nat) : UInt8 := (0x30 + n).toUInt8

theorem digit_toNat {n : Nat} (h : n < 10) : (digit n).toNat = 0x30 + n := by
  simp [digit]
  omega

theorem isDigit_digit {n : Nat} (h : n < 10) : isDigit (digit n) = true := by
  have hnat := digit_toNat h
  simp only [isDigit, Bool.and_eq_true, decide_eq_true_eq, UInt8.le_iff_toNat_le, hnat]
  exact ⟨Nat.le_add_right _ _, by simp; omega⟩

theorem digitValue?_digit {n : Nat} (h : n < 10) : digitValue? (digit n) = some n := by
  have hdigit : (0x30 ≤ digit n && digit n ≤ 0x39) = true := isDigit_digit h
  rw [digitValue?, if_pos hdigit, digit_toNat h]
  simp

theorem ofNat_eq (n : Nat) :
    ofNat n = if n < 10 then [digit n] else ofNat (n / 10) ++ [digit (n % 10)] := by
  have hchar : ∀ d : Nat, d < 10 → utf8Char d.digitChar = [digit d] := by decide
  have hdigits : ∀ n : Nat, ofNat n = (Nat.toDigits 10 n).flatMap utf8Char := by
    intro n
    rw [ofNat, Nat.repr_eq_ofList_toDigits, utf8_ofList]
  rw [hdigits, Nat.toDigits_eq_if (by decide)]
  split
  · next h => simp [hchar n h]
  · next h =>
      rw [List.flatMap_append, hdigits]
      simp [hchar (n % 10) (Nat.mod_lt n (by decide))]

theorem ofNat_ne_nil (n : Nat) : ofNat n ≠ [] := by
  rw [ofNat_eq]
  split <;> simp

theorem ofNat_digits (n : Nat) : ∀ b ∈ ofNat n, isDigit b = true := by
  induction n using Nat.strongRecOn with
  | ind n ih =>
      intro b hb
      rw [ofNat_eq] at hb
      split at hb
      · next h =>
          rw [List.mem_singleton] at hb
          rw [hb]
          exact isDigit_digit h
      · rcases List.mem_append.mp hb with hb | hb
        · exact ih (n / 10) (by omega) b hb
        · rw [List.mem_singleton] at hb
          rw [hb]
          exact isDigit_digit (Nat.mod_lt n (by decide))

end Bytes

namespace Decimal

/-! ## The value of digits -/

theorem digitsValue_append_singleton (base : Nat) (text : Bytes) (b : UInt8) :
    digitsValue base (text ++ [b]) =
      digitsValue base text * base + (Bytes.digitValue? b).getD 0 := by
  simp [digitsValue]

theorem digitsValue_ofNat (n : Nat) : digitsValue 10 (Bytes.ofNat n) = n := by
  induction n using Nat.strongRecOn with
  | ind n ih =>
      rw [Bytes.ofNat_eq]
      split
      · next h => simp [digitsValue, Bytes.digitValue?_digit h]
      · next h =>
          have hlast := Bytes.digitValue?_digit (Nat.mod_lt n (show 0 < 10 by decide))
          rw [digitsValue_append_singleton, ih (n / 10) (by omega), hlast]
          simp only [Option.getD_some]
          omega

theorem digitsValue_append_zeros (text : Bytes) (count : Nat) :
    digitsValue 10 (text ++ Layout.zeros count) = digitsValue 10 text * 10 ^ count := by
  induction count with
  | zero => simp [Layout.zeros]
  | succ count ih =>
      have hzero : (Bytes.digitValue? 0x30).getD 0 = 0 := by decide
      have hsplit : text ++ Layout.zeros (count + 1) = text ++ Layout.zeros count ++ [0x30] := by
        simp [Layout.zeros, List.replicate_succ']
      rw [hsplit, digitsValue_append_singleton, ih, hzero, Nat.pow_succ,
        Nat.mul_assoc, Nat.add_zero]

theorem digitsValue_zeros_append (count : Nat) (text : Bytes) :
    digitsValue 10 (Layout.zeros count ++ text) = digitsValue 10 text := by
  induction count with
  | zero => rfl
  | succ count ih =>
      rw [← ih]
      simp only [Layout.zeros, List.replicate_succ, List.cons_append, digitsValue, List.foldl_cons]
      rfl

/-! ## Digits with a point -/

theorem not_mem_digits {digits : Bytes} (h : ∀ b ∈ digits, Bytes.isDigit b = true) {b : UInt8}
    (hb : Bytes.isDigit b = false) : b ∉ digits := by
  intro hmem
  rw [h b hmem] at hb
  cases hb

theorem zeros_digits (count : Nat) : ∀ b ∈ Layout.zeros count, Bytes.isDigit b = true := by
  intro b hb
  rw [List.eq_of_mem_replicate hb]
  decide

/-- Digits, or digits on both sides of a point. -/
inductive Plain : Bytes → Prop where
  | whole {digits : Bytes} (hne : digits ≠ []) (hdigits : ∀ b ∈ digits, Bytes.isDigit b = true) :
      Plain digits
  | point {whole fraction : Bytes} (hwhole : whole ≠ []) (hfraction : fraction ≠ [])
      (hdigits : ∀ b ∈ whole ++ fraction, Bytes.isDigit b = true) :
      Plain (whole ++ 0x2E :: fraction)

theorem readPlain_whole {digits : Bytes} (h : ∀ b ∈ digits, Bytes.isDigit b = true) :
    readPlain digits = Magnitude.toFloat ⟨digitsValue 10 digits, 10, 0⟩ := by
  rw [readPlain, Bytes.cut?_of_not_mem (not_mem_digits h (by decide))]

theorem readPlain_point {whole fraction : Bytes} (h : ∀ b ∈ whole, Bytes.isDigit b = true) :
    readPlain (whole ++ 0x2E :: fraction) =
      Magnitude.toFloat ⟨digitsValue 10 (whole ++ fraction), 10, -fraction.length⟩ := by
  rw [readPlain, Bytes.cut?_append (not_mem_digits h (by decide))]

def padded (d : Decimal) : Bytes :=
  Layout.zeros ((-d.exponent).toNat + 1 - (Bytes.ofNat d.digits).length) ++ Bytes.ofNat d.digits

theorem padded_digits (d : Decimal) : ∀ b ∈ padded d, Bytes.isDigit b = true := by
  intro b hb
  rcases List.mem_append.mp hb with hb | hb
  · exact zeros_digits _ b hb
  · exact Bytes.ofNat_digits _ b hb

theorem padded_length (d : Decimal) : (-d.exponent).toNat < (padded d).length := by
  simp only [padded, Layout.zeros, List.length_append, List.length_replicate]
  omega

theorem positional_point {d : Decimal} (h : d.exponent < 0) :
    Layout.positional d =
      (padded d).take ((padded d).length - (-d.exponent).toNat) ++
        0x2E :: (padded d).drop ((padded d).length - (-d.exponent).toNat) := by
  unfold Layout.positional
  simp only [if_neg (show ¬ 0 ≤ d.exponent by omega), List.append_assoc, List.singleton_append]
  rfl

theorem positional_plain (d : Decimal) : Plain (Layout.positional d) := by
  by_cases hexp : 0 ≤ d.exponent
  · simp only [Layout.positional, if_pos hexp]
    split
    · exact .whole (Bytes.ofNat_ne_nil _) (Bytes.ofNat_digits _)
    · refine .whole (by simp [Bytes.ofNat_ne_nil]) ?_
      intro b hb
      rcases List.mem_append.mp hb with hb | hb
      · exact Bytes.ofNat_digits _ b hb
      · exact zeros_digits _ b hb
  · have hlen := padded_length d
    rw [positional_point (by omega)]
    refine .point ?_ ?_ ?_
    · rw [← List.length_pos_iff, List.length_take]
      omega
    · rw [← List.length_pos_iff, List.length_drop]
      omega
    · rw [List.take_append_drop]
      exact padded_digits d

/-- The text of a decimal is read as a magnitude of the same digits and places. -/
theorem readPlain_positional (d : Decimal) :
    readPlain (Layout.positional d) =
      Magnitude.toFloat
        (if 0 ≤ d.exponent then ⟨d.digits * 10 ^ d.exponent.toNat, 10, 0⟩
        else ⟨d.digits, 10, d.exponent⟩) := by
  by_cases hexp : 0 ≤ d.exponent
  · rw [if_pos hexp]
    simp only [Layout.positional, if_pos hexp]
    split
    · next hzero =>
        rw [readPlain_whole (Bytes.ofNat_digits _), digitsValue_ofNat, hzero, Nat.zero_mul]
    · rw [readPlain_whole, digitsValue_append_zeros, digitsValue_ofNat]
      intro b hb
      rcases List.mem_append.mp hb with hb | hb
      · exact Bytes.ofNat_digits _ b hb
      · exact zeros_digits _ b hb
  · have hlen := padded_length d
    rw [if_neg hexp, positional_point (by omega), readPlain_point, List.take_append_drop, padded,
      digitsValue_zeros_append, digitsValue_ofNat, ← padded, List.length_drop]
    · congr 2
      omega
    · intro b hb
      exact padded_digits d b (List.mem_of_mem_take hb)

/-! ## Plain texts among all numbers -/

def isPlain (b : UInt8) : Bool := Bytes.isDigit b || b == 0x2E

theorem Plain.bytes {text : Bytes} (h : Plain text) : ∀ b ∈ text, isPlain b = true := by
  cases h with
  | whole hne hdigits =>
      intro b hb
      rw [isPlain, hdigits b hb, Bool.true_or]
  | point hwhole hfraction hdigits =>
      intro b hb
      rw [List.mem_append, List.mem_cons] at hb
      rcases hb with hb | rfl | hb
      · rw [isPlain, hdigits b (List.mem_append_left _ hb), Bool.true_or]
      · decide
      · rw [isPlain, hdigits b (List.mem_append_right _ hb), Bool.true_or]

theorem Plain.starts {text : Bytes} (h : Plain text) :
    ∃ b more, text = b :: more ∧ Bytes.isDigit b = true := by
  cases h with
  | whole hne hdigits =>
      obtain ⟨b, more, rfl⟩ := List.exists_cons_of_ne_nil hne
      exact ⟨b, more, rfl, hdigits b List.mem_cons_self⟩
  | point hwhole hfraction hdigits =>
      obtain ⟨b, more, rfl⟩ := List.exists_cons_of_ne_nil hwhole
      exact ⟨b, more ++ 0x2E :: _, rfl, hdigits b (by simp)⟩

theorem isPlain_range {b : UInt8} (h : isPlain b = true) : 0x2E ≤ b.toNat ∧ b.toNat ≤ 0x39 := by
  simp only [isPlain, Bytes.isDigit, Bool.or_eq_true, Bool.and_eq_true, decide_eq_true_eq,
    UInt8.le_iff_toNat_le, UInt8.reduceToNat, beq_iff_eq, ← UInt8.toNat_inj] at h
  omega

theorem lowerByte_plain {b : UInt8} (h : isPlain b = true) : lowerByte b = b := by
  have hrange := isPlain_range h
  rw [lowerByte, if_neg]
  simp only [Bool.and_eq_true, decide_eq_true_eq, UInt8.le_iff_toNat_le, UInt8.reduceToNat]
  omega

theorem ne_of_plain {b c : UInt8} (h : isPlain b = true) (hc : 0x39 < c.toNat) : b ≠ c := by
  have hrange := isPlain_range h
  rintro rfl
  omega

/-- No base mark stands in front of digits and points. -/
theorem unmarked_plain (text : Bytes) : (∀ b ∈ text, isPlain b = true) →
    (match text with
      | 0x30 :: x :: rest =>
          if lowerByte x = 0x78 && !rest.isEmpty then (true, rest) else (false, text)
      | _ => (false, text)) = (false, text) := by
  intro htext
  split
  · next x rest =>
      have hx := htext x (by simp)
      rw [lowerByte_plain hx, decide_eq_false (ne_of_plain hx (by decide))]
      rfl
  · rfl

theorem readMagnitude?_plain {text whole fraction : Bytes} (htext : ∀ b ∈ text, isPlain b = true)
    (hcut : (Bytes.cut? 0x2E text).getD (text, []) = (whole, fraction))
    (hne : whole ++ fraction ≠ []) (hdigits : ∀ b ∈ whole ++ fraction, Bytes.isDigit b = true) :
    readMagnitude? text =
      some ⟨digitsValue 10 (whole ++ fraction), 10, -(fraction.length : Int)⟩ := by
  have hmark : ∀ b ∈ text, (!decide (lowerByte b = 0x65)) = true := by
    intro b hb
    rw [lowerByte_plain (htext b hb), decide_eq_false (ne_of_plain (htext b hb) (by decide))]
    rfl
  have hunderscore : text.contains 0x5F = false := by
    rw [← Bool.not_eq_true, List.contains_iff_mem]
    exact fun hmem => ne_of_plain (htext _ hmem) (by decide) rfl
  have hkeep : ∀ part : Bytes, (∀ b ∈ part, Bytes.isDigit b = true) →
      part.filter (· ≠ 0x5F) = part := by
    intro part hpart
    rw [List.filter_eq_self]
    intro b hb
    refine decide_eq_true (ne_of_plain ?_ (by decide))
    rw [isPlain, hpart b hb, Bool.true_or]
  have hfraction : fraction.filter (· ≠ 0x5F) = fraction :=
    hkeep fraction fun b hb => hdigits b (List.mem_append_right _ hb)
  have hsome : ((whole ++ fraction).isEmpty || !(whole ++ fraction).all Bytes.isDigit) = false := by
    rw [List.all_eq_true.mpr hdigits, List.isEmpty_eq_false_iff.mpr hne]
    rfl
  unfold readMagnitude?
  split
  next hex body hbase =>
  obtain ⟨rfl, rfl⟩ := Prod.mk.inj (hbase.symm.trans (unmarked_plain text htext))
  simp only [Bool.false_eq_true, if_false, List.takeWhile_eq_self_iff.mpr hmark,
    List.dropWhile_eq_nil_iff.mpr hmark, hcut, hkeep _ hdigits, hfraction, hsome, hunderscore,
    Bool.false_and, List.isEmpty_nil, if_true, Option.map_some, Int.zero_sub]

theorem Plain.magnitude {text : Bytes} (h : Plain text) :
    ∃ m, readMagnitude? text = some m ∧ m.toFloat = readPlain text := by
  have hpoint : Bytes.isDigit 0x2E = false := by decide
  have hbytes := h.bytes
  cases h with
  | whole hne hdigits =>
      have hcut : (Bytes.cut? 0x2E text).getD (text, []) = (text, []) := by
        rw [Bytes.cut?_of_not_mem (not_mem_digits hdigits hpoint)]
        rfl
      refine ⟨_, readMagnitude?_plain hbytes hcut (by simpa using hne) (by simpa using hdigits), ?_⟩
      rw [readPlain_whole hdigits, List.append_nil]
      rfl
  | @point whole fraction hwhole hfraction hdigits =>
      have hfront : ∀ b ∈ whole, Bytes.isDigit b = true :=
        fun b hb => hdigits b (List.mem_append_left fraction hb)
      have hcut : (Bytes.cut? 0x2E (whole ++ 0x2E :: fraction)).getD
          (whole ++ 0x2E :: fraction, []) = (whole, fraction) := by
        rw [Bytes.cut?_append (not_mem_digits hfront hpoint)]
        rfl
      refine ⟨_, readMagnitude?_plain hbytes hcut (by simp [hwhole]) hdigits, ?_⟩
      rw [readPlain_point hfront]

theorem read?_plain {text : Bytes} (h : Plain text) : read? text = some (readPlain text) := by
  obtain ⟨m, hmagnitude, hvalue⟩ := h.magnitude
  obtain ⟨b, more, htext, hb⟩ := h.starts
  have hplain : isPlain b = true := by rw [isPlain, hb, Bool.true_or]
  -- A text that starts with a digit has no sign and is no word.
  have hsign : splitSign text = (false, text) := by
    rw [htext]
    unfold splitSign
    split
    · next heq =>
        cases heq
        exact absurd hb (by decide)
    · next heq =>
        cases heq
        exact absurd hb (by decide)
    · rfl
  have hlower : Bytes.lower text = b :: Bytes.lower more := by
    rw [htext]
    exact congrArg (· :: Bytes.lower more) (lowerByte_plain hplain)
  have hword : ∀ {c : UInt8} {rest : Bytes}, 0x39 < c.toNat → ¬ Bytes.lower text = c :: rest := by
    intro c rest hc heq
    rw [hlower, List.cons.injEq] at heq
    exact ne_of_plain hplain hc heq.1
  have hinf : Bytes.lower text ≠ utf8 "inf" := hword (by decide)
  have hinfinity : Bytes.lower text ≠ utf8 "infinity" := hword (by decide)
  have hnan : Bytes.lower text ≠ utf8 "nan" := hword (by decide)
  unfold read? Numeral.read?
  simp only [hsign, hinf, hinfinity, hnan, hmagnitude, decide_false, Bool.or_self,
    Bool.false_eq_true, if_false, Option.map_some, Numeral.toFloat, hvalue]

end Decimal

end Scribe
