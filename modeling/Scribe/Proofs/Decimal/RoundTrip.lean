import Scribe.Proofs.Decimal.Digits
import Scribe.Proofs.Decimal.Doubles
import Scribe.Proofs.Decimal.Shortest

/-!
# Numbers read back

The text of a finite number is plain digits behind an optional sign, and reading the digits gives
the magnitude of the number back, bit by bit.
-/

namespace Scribe

namespace Decimal

namespace Magnitude

def value (m : Magnitude) : ℚ := m.mantissa * (m.base : ℚ) ^ m.exponent

theorem value_eq_div (m : Magnitude) :
    m.value =
      (m.mantissa * m.base ^ m.exponent.toNat : Nat) / (m.base ^ (-m.exponent).toNat : Nat) := by
  rw [value, zpow_eq_div, Nat.cast_mul, mul_div_assoc]

theorem lead_spec {m : Magnitude} (hbase : m.base = 10) (hpos : 0 < m.mantissa) :
    (10 : ℚ) ^ (m.lead - 1) ≤ m.value ∧ m.value < (10 : ℚ) ^ (m.lead - 1 + 1) := by
  have hcount := digitCount_pos m.mantissa
  have hlead : m.lead = m.exponent + digitCount m.mantissa := by
    rw [lead, hbase]
    rfl
  have hlow : (10 : ℚ) ^ (digitCount m.mantissa - 1) ≤ m.mantissa := by
    exact_mod_cast pow_pred_digitCount_le hpos
  have hhigh : (m.mantissa : ℚ) < (10 : ℚ) ^ digitCount m.mantissa := by
    exact_mod_cast lt_pow_digitCount m.mantissa
  rw [value, hbase, Nat.cast_ofNat, sub_add_cancel, hlead]
  constructor
  · rw [show m.exponent + (digitCount m.mantissa : Int) - 1 =
        ((digitCount m.mantissa - 1 : Nat) : Int) + m.exponent by omega,
      zpow_add₀ (by norm_num), zpow_natCast]
    gcongr
  · rw [add_comm, zpow_add₀ (by norm_num), zpow_natCast]
    gcongr

end Magnitude

theorem two_pow_lt_ten_pow : (2 : ℚ) ^ (1025 : Int) < (10 : ℚ) ^ (308 + 1 : Int) := by
  have hnat : 2 ^ 1025 < 10 ^ 309 := by decide +kernel
  have hcast : ((2 ^ 1025 : Nat) : ℚ) < ((10 ^ 309 : Nat) : ℚ) := Nat.cast_lt.mpr hnat
  rw [Nat.cast_pow, Nat.cast_pow] at hcast
  rw [show (1025 : Int) = (1025 : Nat) from rfl, show (308 + 1 : Int) = (309 : Nat) from rfl,
    zpow_natCast, zpow_natCast]
  exact hcast

theorem ten_pow_le_two_pow : (10 : ℚ) ^ (-325 + 1 : Int) ≤ (2 : ℚ) ^ (-1075 : Int) := by
  have hnat : 2 ^ 1075 ≤ 10 ^ 324 := by decide +kernel
  have hcast : ((2 ^ 1075 : Nat) : ℚ) ≤ ((10 ^ 324 : Nat) : ℚ) := Nat.cast_le.mpr hnat
  rw [Nat.cast_pow, Nat.cast_pow] at hcast
  rw [show (-325 + 1 : Int) = -(324 : Nat) from rfl, show (-1075 : Int) = -(1075 : Nat) from rfl,
    zpow_neg, zpow_neg, zpow_natCast, zpow_natCast]
  exact inv_anti₀ (by positivity) hcast

/-- All doubles lie far within the powers of ten that are computed. -/
theorem covers_bounds {b : Binary} (hfits : b.Fits) (hpos : 0 < b.mantissa) {x : ℚ}
    (h : b.Covers x) : (10 : ℚ) ^ (-325 + 1 : Int) ≤ x ∧ x < (10 : ℚ) ^ (308 + 1 : Int) := by
  have hunit : (0 : ℚ) < (2 : ℚ) ^ b.exponent := by positivity
  have hlow := h.low
  have hhigh := h.high
  rw [le_div_iff₀ hunit] at hlow
  rw [div_le_iff₀ hunit] at hhigh
  have hmantissa : (1 : ℚ) ≤ b.mantissa := by exact_mod_cast hpos
  have hbound : (b.mantissa : ℚ) + 1 ≤ 2 ^ 53 := by exact_mod_cast hfits.bound
  have hbelow := b.below_le
  constructor
  · calc (10 : ℚ) ^ (-325 + 1 : Int) ≤ (2 : ℚ) ^ (-1075 : Int) := ten_pow_le_two_pow
      _ = 1 / 2 * (2 : ℚ) ^ (-1074 : Int) := by
          rw [show (-1075 : Int) = -1074 - 1 from rfl, zpow_sub_one₀ two_ne_zero, mul_comm,
            one_div]
      _ ≤ 1 / 2 * (2 : ℚ) ^ b.exponent := by
          have hmono := zpow_le_zpow_right₀ (one_le_two (α := ℚ)) hfits.least
          linarith
      _ ≤ (b.mantissa - b.below) * (2 : ℚ) ^ b.exponent := by
          gcongr
          linarith
      _ ≤ x := hlow
  · calc x ≤ (b.mantissa + 1 / 2) * (2 : ℚ) ^ b.exponent := hhigh
      _ ≤ 2 ^ 53 * (2 : ℚ) ^ b.exponent := by
          gcongr
          linarith
      _ ≤ 2 ^ 53 * (2 : ℚ) ^ (972 : Int) := by
          have hmono := zpow_le_zpow_right₀ (one_le_two (α := ℚ)) hfits.greatest
          linarith
      _ = (2 : ℚ) ^ (1025 : Int) := by
          rw [← zpow_natCast, ← zpow_add₀ two_ne_zero]
          rfl
      _ < (10 : ℚ) ^ (308 + 1 : Int) := two_pow_lt_ten_pow

/-- A magnitude in the interval of a double is read as it. -/
theorem nearestBits_of_covers {u : Nat} (hpos : 0 < u)
    (hfinite : u < BinaryFormat.double.infinityBits) {m : Magnitude} (hbase : m.base = 10)
    (h : (Binary.ofBits u).Covers m.value) : m.nearestBits .double = u := by
  have hmantissa := Binary.mantissa_pos hpos hfinite
  obtain ⟨hlow, hhigh⟩ := covers_bounds (Binary.fits_ofBits u) hmantissa h
  have hdigits : 0 < m.mantissa := by
    by_contra hzero
    have hnone : m.value = 0 := by
      rw [Magnitude.value, Nat.eq_zero_of_not_pos hzero, Nat.cast_zero, zero_mul]
    rw [hnone] at hlow
    exact absurd hlow (not_le.mpr (by positivity))
  obtain ⟨hleadLow, hleadHigh⟩ := Magnitude.lead_spec hbase hdigits
  have hmost := exponent_le (by norm_num) hleadLow hhigh
  have hleast := exponent_le (by norm_num) hlow hleadHigh
  have hsome : ¬ (decide (m.mantissa = 0) || decide (m.lead < -1100)) = true := by
    simp only [Bool.or_eq_true, decide_eq_true_eq]
    omega
  unfold Magnitude.nearestBits
  rw [if_neg hsome, if_neg (by omega)]
  refine BinaryFormat.nearestBits_of_covers hfinite ?_ ?_ ?_
  · rw [hbase]
    exact Nat.mul_pos hdigits (Nat.pow_pos (by decide))
  · rw [hbase]
    exact Nat.pow_pos (by decide)
  · rw [Magnitude.value_eq_div] at h
    exact h

/-- The magnitude that the text of a decimal is read as. -/
def written (d : Decimal) : Magnitude :=
  if 0 ≤ d.exponent then ⟨d.digits * 10 ^ d.exponent.toNat, 10, 0⟩ else ⟨d.digits, 10, d.exponent⟩

theorem written_base (d : Decimal) : d.written.base = 10 := by
  unfold written
  split <;> rfl

theorem written_value (d : Decimal) : d.written.value = d.value := by
  unfold written
  split
  · next h =>
      have hpow : (10 : ℚ) ^ d.exponent = (10 : ℚ) ^ d.exponent.toNat := by
        rw [← zpow_natCast, Int.toNat_of_nonneg h]
      rw [Magnitude.value, value, zpow_zero, mul_one, hpow]
      push_cast
      rfl
  · rw [Magnitude.value, value, Nat.cast_ofNat]

/-- The text of the shortest decimal is read as the double. -/
theorem readPlain_shortest {u : Nat} (hfinite : u < BinaryFormat.double.infinityBits) :
    readPlain (Layout.positional (shortest (Binary.ofBits u))) = Float.ofBits u.toUInt64 := by
  rw [readPlain_positional, Magnitude.toFloat]
  change Float.ofBits ((shortest (Binary.ofBits u)).written.nearestBits .double).toUInt64 = _
  rcases Nat.eq_zero_or_pos u with rfl | hpos
  · rfl
  · rw [nearestBits_of_covers hpos hfinite (written_base _)]
    rw [written_value]
    exact shortest_covers (Binary.fits_ofBits u) (Binary.mantissa_pos hpos hfinite)

/-- The text of a finite number: plain digits that are read as its magnitude, behind its sign. -/
theorem number_plain {f : Float} (hnan : f.isNaN = false) (hinf : f.isInf = false) :
    ∃ text, Layout.plain.number f = (if Layout.signBit f then 0x2D :: text else text) ∧
      Plain text ∧ (if Layout.signBit f then -readPlain text else readPlain text) = f := by
  have hlt := Doubles.unsigned_lt hnan hinf
  refine ⟨Layout.positional (shortest (Binary.ofBits (Doubles.unsigned f))), ?_,
    positional_plain _, ?_⟩
  · have htext : ∀ d : Decimal, Layout.plain.magnitude d = Layout.positional d := by
      intro d
      have hplain : (decide (d.digits ≠ 0) && Layout.plain.isScientific
          (d.exponent + digitCount d.digits - 1)) = false := by
        simp [Layout.isScientific, Layout.plain]
      have htail : utf8 Layout.plain.integerTail = [] := rfl
      simp only [Layout.magnitude, hplain, htail, List.append_nil, ite_self]
      rfl
    unfold Layout.number
    rw [if_neg (by rw [hnan]; decide), if_neg (by rw [hinf]; decide)]
    simp only [htext]
    rfl
  · rw [readPlain_shortest hlt]
    exact Doubles.ofBits_unsigned hnan hinf

/-! ## Numbers that were read -/

theorem Magnitude.nearestBits_le (f : BinaryFormat) (m : Magnitude) :
    m.nearestBits f ≤ f.infinityBits := by
  unfold Magnitude.nearestBits
  split
  · exact Nat.zero_le _
  · split
    · exact Nat.le_refl _
    · exact BinaryFormat.nearestBits_le f _ _

theorem signBit_readPlain (text : Bytes) : Layout.signBit (readPlain text) = false := by
  unfold readPlain
  split <;> exact Doubles.signBit_ofBits (Magnitude.nearestBits_le .double _)

/-- A finite number that was read from digits is written as digits that are read as the number. -/
theorem number_of_readPlain {text : Bytes} {f : Float} (htext : Plain text)
    (hread : read? text = some f) (hnan : f.isNaN = false) (hinf : f.isInf = false) :
    Plain (Layout.plain.number f) ∧ read? (Layout.plain.number f) = some f := by
  have hsign : Layout.signBit f = false := by
    rw [read?_plain htext, Option.some.injEq] at hread
    rw [← hread]
    exact signBit_readPlain text
  obtain ⟨digits, hnumber, hdigits, hvalue⟩ := number_plain hnan hinf
  rw [hsign, if_neg Bool.false_ne_true] at hnumber hvalue
  rw [hnumber, read?_plain hdigits, hvalue]
  exact ⟨hdigits, rfl⟩

end Decimal

end Scribe
