import Scribe.Decimal.Shortest
import Scribe.Proofs.Decimal.Nearest

/-!
# The numbers that read as a double

Around each double lies an interval of numbers that are rounded to it. Its ends belong to it if
the pattern of the double is even.
-/

namespace Scribe

theorem zpow_add_le_iff {q : ℚ} {e : Int} {n : Nat} :
    (2 : ℚ) ^ (e + n) ≤ q ↔ (2 : ℚ) ^ n ≤ q / (2 : ℚ) ^ e := by
  rw [le_div_iff₀ (by positivity), zpow_add₀ two_ne_zero, zpow_natCast, mul_comm]

namespace Binary

/-- Distance to the lower end of the interval, in units of the last place. -/
def below (b : Binary) : ℚ := if b.narrowBelow then 1 / 4 else 1 / 2

/-- The numbers that are rounded to a double, in units of its last place. -/
structure Covers (b : Binary) (x : ℚ) : Prop where
  low : b.mantissa - b.below ≤ x / (2 : ℚ) ^ b.exponent
  high : x / (2 : ℚ) ^ b.exponent ≤ b.mantissa + 1 / 2
  odd : b.mantissa % 2 = 1 → b.mantissa - b.below < x / (2 : ℚ) ^ b.exponent ∧
    x / (2 : ℚ) ^ b.exponent < b.mantissa + 1 / 2

theorem Covers.nearest {b : Binary} {x : ℚ} (h : b.Covers x) :
    BinaryFormat.Nearest (x / (2 : ℚ) ^ b.exponent) b.mantissa := by
  have hbelow : b.below ≤ 1 / 2 := by
    unfold below
    split <;> norm_num
  obtain ⟨hlow, hhigh, hodd⟩ := h
  refine ⟨by linarith, hhigh, ?_⟩
  intro hm
  obtain ⟨hl, hh⟩ := hodd hm
  exact ⟨by linarith, hh⟩

/-! ## The parts of a pattern -/

theorem ofBits_subnormal {u : Nat} (h : u < 2 ^ 52) : ofBits u = ⟨u, -1074, false⟩ := by
  have hbiased : u / Nat.pow 2 52 % Nat.pow 2 11 = 0 := by
    simp only [Nat.pow_eq]
    omega
  have hfraction : u % Nat.pow 2 52 = u := Nat.mod_eq_of_lt h
  unfold ofBits
  simp only [hbiased, hfraction, if_true]

theorem ofBits_normal {biased fraction : Nat} (hbiased : 1 ≤ biased) (hbound : biased < 2 ^ 11)
    (hfraction : fraction < 2 ^ 52) :
    ofBits (biased * 2 ^ 52 + fraction) =
      ⟨fraction + 2 ^ 52, (biased : Int) - 1075, fraction = 0 && 1 < biased⟩ := by
  have hhigh : (biased * 2 ^ 52 + fraction) / Nat.pow 2 52 % Nat.pow 2 11 = biased := by
    simp only [Nat.pow_eq]
    omega
  have hlow : (biased * 2 ^ 52 + fraction) % Nat.pow 2 52 = fraction := by
    simp only [Nat.pow_eq]
    omega
  unfold ofBits
  simp only [hhigh, hlow, if_neg (show biased ≠ 0 by omega)]
  rfl

/-- A finite pattern counts steps from zero or from a power of two. -/
theorem pattern_cases {u : Nat} (h : u < BinaryFormat.double.infinityBits) :
    u < 2 ^ 52 ∨ ∃ biased fraction, u = biased * 2 ^ 52 + fraction ∧ 1 ≤ biased ∧
      biased < 2047 ∧ fraction < 2 ^ 52 := by
  have hinf : BinaryFormat.double.infinityBits = 2047 * 2 ^ 52 := by decide
  rw [hinf] at h
  by_cases hsub : u < 2 ^ 52
  · exact .inl hsub
  · exact .inr ⟨u / 2 ^ 52, u % 2 ^ 52, by omega, by omega, by omega, by omega⟩

theorem mantissa_pos {u : Nat} (hpos : 0 < u) (h : u < BinaryFormat.double.infinityBits) :
    0 < (ofBits u).mantissa := by
  rcases pattern_cases h with hsub | ⟨biased, fraction, rfl, hone, hbound, hfraction⟩
  · rw [ofBits_subnormal hsub]
    exact hpos
  · rw [ofBits_normal hone (by omega) hfraction]
    exact Nat.add_pos_right _ (by decide)

end Binary

namespace BinaryFormat

theorem double_bits_eq {u : Nat} (hfinite : u < double.infinityBits) {num den : Nat}
    (hnum : 0 < num) (hden : 0 < den) {exponent : Int} (steps : Nat)
    (hexp : max (magnitude num den) (-1022) = exponent)
    (hsteps : Nearest ((num : ℚ) / den / (2 : ℚ) ^ (exponent - 52)) steps)
    (hu : (exponent + 1022).toNat * 2 ^ 52 + steps = u) : double.nearestBits num den = u := by
  have hleast : double.leastExponent = -1022 := by decide
  have hbits := nearestBits_eq double hnum hden (by rw [hleast]; exact hexp) hsteps
  rw [hleast, sub_neg_eq_add] at hbits
  rw [hbits]
  change min ((exponent + 1022).toNat * 2 ^ 52 + steps) double.infinityBits = u
  rw [hu, Nat.min_eq_left (Nat.le_of_lt hfinite)]

theorem nearestBits_subnormal {u : Nat} (hsub : u < 2 ^ 52) {num den : Nat} (hnum : 0 < num)
    (hden : 0 < den) (hnear : Nearest ((num : ℚ) / den / (2 : ℚ) ^ (-1074 : Int)) u) :
    double.nearestBits num den = u := by
  have hinf : double.infinityBits = 2047 * 2 ^ 52 := by decide
  -- The number lies below all those with a leading one.
  have hsmall : (num : ℚ) / den < (2 : ℚ) ^ (-1023 + 1 : Int) := by
    have hsub' : (u : ℚ) + 1 ≤ 2 ^ 52 := by exact_mod_cast hsub
    have hhigh := hnear.high
    rw [← not_le, show (-1023 + 1 : Int) = -1074 + (52 : Nat) from rfl, zpow_add_le_iff, not_le]
    linarith
  have hexp : max (magnitude num den) (-1022) = -1022 := by
    have hle := exponent_le one_lt_two (magnitude_spec hnum hden).1 hsmall
    omega
  exact double_bits_eq (by omega) hnum hden u hexp hnear (by omega)

/-- A number little less than a power of two is rounded up to it, over the border of binades. -/
theorem nearestBits_carry {biased : Nat} (hone : 1 < biased) (hbound : biased < 2047)
    {num den : Nat} (hnum : 0 < num) (hden : 0 < den)
    (hlow : 2 ^ 52 - 1 / 4 ≤ (num : ℚ) / den / (2 : ℚ) ^ ((biased : Int) - 1075))
    (hhigh : (num : ℚ) / den / (2 : ℚ) ^ ((biased : Int) - 1075) < 2 ^ 52) :
    double.nearestBits num den = biased * 2 ^ 52 := by
  have hinf : double.infinityBits = 2047 * 2 ^ 52 := by decide
  have hmag : magnitude num den = (biased : Int) - 1024 := by
    refine magnitude_eq hnum hden ?_ ?_
    · rw [show (biased : Int) - 1024 = (biased : Int) - 1075 + (51 : Nat) by omega,
        zpow_add_le_iff]
      linarith
    · rw [← not_le, show (biased : Int) - 1024 + 1 = (biased : Int) - 1075 + (52 : Nat) by omega,
        zpow_add_le_iff, not_le]
      exact hhigh
  have hexp : max (magnitude num den) (-1022) = (biased : Int) - 1024 := by omega
  refine double_bits_eq (by omega) hnum hden (2 ^ 53) hexp ?_ ?_
  · -- One binade further down, the unit of the last place is half as wide.
    have htwice : (num : ℚ) / den / (2 : ℚ) ^ ((biased : Int) - 1024 - 52) =
        2 * ((num : ℚ) / den / (2 : ℚ) ^ ((biased : Int) - 1075)) := by
      rw [show (biased : Int) - 1024 - 52 = (biased : Int) - 1075 - 1 by omega,
        zpow_sub_one₀ two_ne_zero]
      field_simp
    rw [htwice]
    refine ⟨by push_cast; linarith, by push_cast; linarith, ?_⟩
    intro hodd
    exact absurd hodd (by decide)
  · omega

theorem nearestBits_normal {biased fraction : Nat} (hone : 1 ≤ biased) (hbound : biased < 2047)
    (hfraction : fraction < 2 ^ 52) {num den : Nat} (hnum : 0 < num) (hden : 0 < den)
    (hcovers : Binary.Covers ⟨fraction + 2 ^ 52, (biased : Int) - 1075, fraction = 0 && 1 < biased⟩
      ((num : ℚ) / den)) :
    double.nearestBits num den = biased * 2 ^ 52 + fraction := by
  have hinf : double.infinityBits = 2047 * 2 ^ 52 := by decide
  obtain ⟨hmagLow, hmagHigh⟩ := magnitude_spec hnum hden
  have hnear := hcovers.nearest
  have hlow := hcovers.low
  have hhigh := hnear.high
  simp only [Binary.below] at hlow hhigh hnear
  push_cast at hlow hhigh
  have hfull : (num : ℚ) / den < (2 : ℚ) ^ ((biased : Int) - 1023 + 1) := by
    have hfraction' : (fraction : ℚ) + 1 ≤ 2 ^ 52 := by exact_mod_cast hfraction
    rw [← not_le, show (biased : Int) - 1023 + 1 = (biased : Int) - 1075 + (53 : Nat) by omega,
      zpow_add_le_iff, not_le]
    linarith
  have hle := exponent_le one_lt_two hmagLow hfull
  by_cases hexp : max (magnitude num den) (-1022) = (biased : Int) - 1023
  · refine double_bits_eq (by omega) hnum hden (fraction + 2 ^ 52) hexp ?_ (by omega)
    rw [show (biased : Int) - 1023 - 52 = (biased : Int) - 1075 by omega]
    exact hnear
  · -- The number lies below the power of two that it is rounded to.
    have hless : (num : ℚ) / den / (2 : ℚ) ^ ((biased : Int) - 1075) < 2 ^ 52 := by
      rw [← not_le, ← zpow_add_le_iff, not_le]
      refine lt_of_lt_of_le hmagHigh (zpow_le_zpow_right₀ one_le_two ?_)
      push_cast
      omega
    have hzero : fraction = 0 := by
      by_contra hne
      have hpos : (1 : ℚ) ≤ fraction := by exact_mod_cast Nat.one_le_iff_ne_zero.mpr hne
      have hlow' := hnear.low
      push_cast at hlow'
      linarith
    have hnarrow : (decide (fraction = 0) && decide (1 < biased)) = true := by
      simp only [Bool.and_eq_true, decide_eq_true_eq]
      omega
    rw [hnarrow, if_pos rfl, hzero, Nat.cast_zero, zero_add] at hlow
    rw [hzero, Nat.add_zero]
    exact nearestBits_carry (by omega) hbound hnum hden hlow hless

/-- A number in the interval of a double is rounded to it. -/
theorem nearestBits_of_covers {u : Nat} (hfinite : u < double.infinityBits) {num den : Nat}
    (hnum : 0 < num) (hden : 0 < den) (hcovers : (Binary.ofBits u).Covers ((num : ℚ) / den)) :
    double.nearestBits num den = u := by
  rcases Binary.pattern_cases hfinite with hsub | ⟨biased, fraction, rfl, hone, hbound, hfraction⟩
  · rw [Binary.ofBits_subnormal hsub] at hcovers
    exact nearestBits_subnormal hsub hnum hden hcovers.nearest
  · rw [Binary.ofBits_normal hone (by omega) hfraction] at hcovers
    exact nearestBits_normal hone hbound hfraction hnum hden hcovers

end BinaryFormat

end Scribe
