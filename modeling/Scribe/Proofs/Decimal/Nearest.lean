import Mathlib
import Scribe.Decimal.Nearest

/-!
# Rounding to the nearest pattern

The computation on natural numbers is compared with the quotient it stands for.
-/

namespace Scribe

theorem zpow_eq_div (base : Nat) (e : Int) :
    (base : ℚ) ^ e = (base ^ e.toNat : Nat) / (base ^ (-e).toNat : Nat) := by
  rcases le_total 0 e with h | h
  · obtain ⟨n, rfl⟩ := Int.eq_ofNat_of_zero_le h
    have hneg : (-(n : Int)).toNat = 0 := by omega
    rw [hneg, zpow_natCast, Int.toNat_natCast, pow_zero, Nat.cast_one, div_one, Nat.cast_pow]
  · obtain ⟨n, hn⟩ := Int.eq_ofNat_of_zero_le (show 0 ≤ -e by omega)
    have he : e = -(n : Int) := by omega
    subst he
    have hzero : (-(n : Int)).toNat = 0 := by omega
    rw [hzero, neg_neg, Int.toNat_natCast, zpow_neg, zpow_natCast, pow_zero, Nat.cast_one,
      Nat.cast_pow, one_div]

theorem scaled_eq_div (base num den : Nat) (e : Int) :
    (num : ℚ) / den / (base : ℚ) ^ e =
      (num * base ^ (-e).toNat : Nat) / (den * base ^ e.toNat : Nat) := by
  rw [zpow_eq_div base e, Nat.cast_mul, Nat.cast_mul, div_div_div_eq]

/-- The power below which a number lies does not exceed the power that it reaches. -/
theorem exponent_le {base : ℚ} (hbase : 1 < base) {q : ℚ} {d e : Int} (hlow : base ^ d ≤ q)
    (hhigh : q < base ^ (e + 1)) : d ≤ e := by
  have hlt := (zpow_lt_zpow_iff_right₀ hbase).mp (lt_of_le_of_lt hlow hhigh)
  omega

namespace BinaryFormat

/-! ## The binade of a quotient -/

theorem pow_log2_le {n : Nat} (hn : 0 < n) : (2 : ℚ) ^ (Nat.log2 n : Int) ≤ n := by
  rw [zpow_natCast]
  exact_mod_cast Nat.log2_self_le hn.ne'

theorem lt_pow_log2 (n : Nat) : (n : ℚ) < (2 : ℚ) ^ ((Nat.log2 n : Int) + 1) := by
  rw [← Nat.cast_one (R := Int), ← Nat.cast_add, zpow_natCast]
  exact_mod_cast Nat.lt_log2_self

/-- The logarithms of its parts leave two binades for a quotient. -/
theorem quotient_bounds {num den : Nat} (hnum : 0 < num) (hden : 0 < den) :
    (2 : ℚ) ^ ((Nat.log2 num : Int) - Nat.log2 den - 1) ≤ (num : ℚ) / den ∧
      (num : ℚ) / den < (2 : ℚ) ^ ((Nat.log2 num : Int) - Nat.log2 den + 1) := by
  have hden' : (0 : ℚ) < den := by exact_mod_cast hden
  have hdenLow := pow_log2_le hden
  have hdenHigh := lt_pow_log2 den
  constructor
  · rw [le_div_iff₀ hden']
    calc (2 : ℚ) ^ ((Nat.log2 num : Int) - Nat.log2 den - 1) * den
        ≤ (2 : ℚ) ^ ((Nat.log2 num : Int) - Nat.log2 den - 1) *
            (2 : ℚ) ^ ((Nat.log2 den : Int) + 1) := by gcongr
      _ = (2 : ℚ) ^ (Nat.log2 num : Int) := by
          rw [← zpow_add₀ two_ne_zero]
          ring_nf
      _ ≤ num := pow_log2_le hnum
  · rw [div_lt_iff₀ hden']
    calc (num : ℚ) < (2 : ℚ) ^ ((Nat.log2 num : Int) + 1) := lt_pow_log2 num
      _ = (2 : ℚ) ^ ((Nat.log2 num : Int) - Nat.log2 den + 1) * (2 : ℚ) ^ (Nat.log2 den : Int) := by
          rw [← zpow_add₀ two_ne_zero]
          ring_nf
      _ ≤ (2 : ℚ) ^ ((Nat.log2 num : Int) - Nat.log2 den + 1) * den := by gcongr

/-- Whether a quotient reaches a power of two is decided on natural numbers. -/
theorem reaches_iff {num den : Nat} (hden : 0 < den) (guess : Int) :
    (if 0 ≤ guess then den * Nat.pow 2 guess.toNat ≤ num
      else den ≤ num * Nat.pow 2 (-guess).toNat) ↔ (2 : ℚ) ^ guess ≤ (num : ℚ) / den := by
  have hden' : (0 : ℚ) < den := by exact_mod_cast hden
  have hpow := zpow_eq_div 2 guess
  rw [Nat.cast_ofNat] at hpow
  rw [hpow, div_le_div_iff₀ (by positivity) hden', ← Nat.cast_mul, ← Nat.cast_mul, Nat.cast_le]
  simp only [Nat.pow_eq]
  split
  · next h =>
      have hzero : (-guess).toNat = 0 := by omega
      rw [hzero, pow_zero, mul_one, mul_comm]
  · next h =>
      have hzero : guess.toNat = 0 := by omega
      rw [hzero, pow_zero, one_mul]

theorem magnitude_spec {num den : Nat} (hnum : 0 < num) (hden : 0 < den) :
    (2 : ℚ) ^ magnitude num den ≤ (num : ℚ) / den ∧
      (num : ℚ) / den < (2 : ℚ) ^ (magnitude num den + 1) := by
  obtain ⟨hlow, hhigh⟩ := quotient_bounds hnum hden
  unfold magnitude
  -- The comparison with the power between the two binades picks one of them.
  simp only [reaches_iff hden]
  split
  · next h => exact ⟨h, hhigh⟩
  · next h => exact ⟨hlow, by rw [sub_add_cancel]; exact not_le.mp h⟩

/-- The binade of a quotient is the only one that it lies in. -/
theorem magnitude_eq {num den : Nat} (hnum : 0 < num) (hden : 0 < den) {e : Int}
    (hlow : (2 : ℚ) ^ e ≤ (num : ℚ) / den) (hhigh : (num : ℚ) / den < (2 : ℚ) ^ (e + 1)) :
    magnitude num den = e := by
  obtain ⟨hlow', hhigh'⟩ := magnitude_spec hnum hden
  have hle := exponent_le one_lt_two hlow' hhigh
  have hge := exponent_le one_lt_two hlow hhigh'
  omega

/-! ## Rounding -/

/-- No integer is nearer to `x` than `n`, and `n` is even if another one is as near. -/
structure Nearest (x : ℚ) (n : Nat) : Prop where
  low : (n : ℚ) - 1 / 2 ≤ x
  high : x ≤ (n : ℚ) + 1 / 2
  odd : n % 2 = 1 → (n : ℚ) - 1 / 2 < x ∧ x < (n : ℚ) + 1 / 2

theorem Nearest.cleared {num den n : Nat} (hden : 0 < den) (h : Nearest ((num : ℚ) / den) n) :
    2 * (n * den) ≤ 2 * num + den ∧ 2 * num ≤ 2 * (n * den) + den ∧
      (n % 2 = 1 → 2 * (n * den) < 2 * num + den ∧ 2 * num < 2 * (n * den) + den) := by
  have hden' : (0 : ℚ) < den := by exact_mod_cast hden
  obtain ⟨hlow, hhigh, hodd⟩ := h
  rw [le_div_iff₀ hden'] at hlow
  rw [div_le_iff₀ hden'] at hhigh
  rw [lt_div_iff₀ hden', div_lt_iff₀ hden'] at hodd
  have hlow' : (2 * (n * den) : ℚ) ≤ 2 * num + den := by linarith
  have hhigh' : (2 * num : ℚ) ≤ 2 * (n * den) + den := by linarith
  refine ⟨by exact_mod_cast hlow', by exact_mod_cast hhigh', ?_⟩
  intro hn
  obtain ⟨hl, hh⟩ := hodd hn
  have hl' : (2 * (n * den) : ℚ) < 2 * num + den := by linarith
  have hh' : (2 * num : ℚ) < 2 * (n * den) + den := by linarith
  exact ⟨by exact_mod_cast hl', by exact_mod_cast hh'⟩

theorem roundHalfEven_eq {num den n : Nat} (hden : 0 < den) (h : Nearest ((num : ℚ) / den) n) :
    roundHalfEven num den = n := by
  obtain ⟨hlow, hhigh, hodd⟩ := h.cleared hden
  have hsplit : num / den * den + num % den = num := Nat.div_add_mod' num den
  have hrest : num % den < den := Nat.mod_lt num hden
  have hle : num / den ≤ n := by
    by_contra hgt
    have hmul : (n + 1) * den ≤ num / den * den := Nat.mul_le_mul_right den (by omega)
    rw [Nat.add_mul] at hmul
    omega
  have hge : n ≤ num / den + 1 := by
    by_contra hgt
    have hmul : (num / den + 2) * den ≤ n * den := Nat.mul_le_mul_right den (by omega)
    rw [Nat.add_mul] at hmul
    omega
  unfold roundHalfEven
  simp only [Bool.or_eq_true, Bool.and_eq_true, decide_eq_true_eq]
  rcases Nat.eq_or_lt_of_le hle with heq | hlt
  · rw [heq] at hsplit ⊢
    have hcond : 2 * (num % den) < den ∨ 2 * (num % den) = den ∧ n % 2 = 0 := by omega
    rw [if_pos hcond]
  · have heq : n = num / den + 1 := by omega
    rw [heq, Nat.add_mul] at hlow hodd
    have hcond : ¬ (2 * (num % den) < den ∨ 2 * (num % den) = den ∧ num / den % 2 = 0) := by omega
    rw [if_neg hcond, heq]

/-- Rounding to a pattern is rounding to a multiple of the gap between neighbouring numbers. -/
theorem nearestBits_eq (f : BinaryFormat) {num den : Nat} (hnum : 0 < num) (hden : 0 < den)
    {exponent : Int} {steps : Nat} (hexp : max (magnitude num den) f.leastExponent = exponent)
    (hsteps : Nearest ((num : ℚ) / den / (2 : ℚ) ^ (exponent - f.fractionBits)) steps) :
    f.nearestBits num den =
      min ((exponent - f.leastExponent).toNat * 2 ^ f.fractionBits + steps) f.infinityBits := by
  have hscale := scaled_eq_div 2 num den (exponent - f.fractionBits)
  rw [Nat.cast_ofNat] at hscale
  rw [hscale] at hsteps
  unfold nearestBits
  simp only [hexp, Nat.pow_eq]
  rw [if_neg hnum.ne', roundHalfEven_eq (by positivity) hsteps]

/-- No pattern lies above that of infinity. -/
theorem nearestBits_le (f : BinaryFormat) (num den : Nat) :
    f.nearestBits num den ≤ f.infinityBits := by
  unfold nearestBits
  split
  · exact Nat.zero_le _
  · exact Nat.min_le_right _ _

end BinaryFormat

end Scribe
