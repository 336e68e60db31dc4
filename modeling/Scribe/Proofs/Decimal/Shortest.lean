import Scribe.Proofs.Decimal.Pattern

/-!
# The shortest decimal reads back

Every decimal that the search may return lies in the interval of the double, and with seventeen
digits the grid is so narrow that one of its points does.
-/

namespace Scribe

def Decimal.value (d : Decimal) : ℚ := d.digits * (10 : ℚ) ^ d.exponent

namespace Binary

def value (b : Binary) : ℚ := b.mantissa * (2 : ℚ) ^ b.exponent

structure Fits (b : Binary) : Prop where
  bound : b.mantissa < 2 ^ 53
  narrow : b.narrowBelow = true → b.mantissa = 2 ^ 52
  least : -1074 ≤ b.exponent
  greatest : b.exponent ≤ 972

theorem fits_ofBits (u : Nat) : (ofBits u).Fits := by
  unfold ofBits
  simp only [Nat.pow_eq]
  split
  · exact ⟨by simp only; omega, by simp, by simp, by simp⟩
  · refine ⟨by simp only; omega, ?_, by simp only; omega, by simp only; omega⟩
    simp only [Bool.and_eq_true, decide_eq_true_eq]
    omega

theorem below_pos (b : Binary) : 0 < b.below := by
  unfold below
  split <;> norm_num

theorem below_le (b : Binary) : b.below ≤ 1 / 2 := by
  unfold below
  split <;> norm_num

/-- What is near enough to a double is rounded to it. -/
theorem Covers.of_near {b : Binary} {x : ℚ} (hlow : b.value - x < b.below * (2 : ℚ) ^ b.exponent)
    (hhigh : x - b.value < b.below * (2 : ℚ) ^ b.exponent) : b.Covers x := by
  have hpos : (0 : ℚ) < (2 : ℚ) ^ b.exponent := by positivity
  have hle := b.below_le
  have hx : x = x / (2 : ℚ) ^ b.exponent * (2 : ℚ) ^ b.exponent := (div_mul_cancel₀ x hpos.ne').symm
  rw [hx, value, ← sub_mul, mul_lt_mul_iff_left₀ hpos] at hlow hhigh
  exact ⟨by linarith, by linarith, fun _ => ⟨by linarith, by linarith⟩⟩

theorem covers_value (b : Binary) : b.Covers b.value := by
  have hpos : 0 < b.below * (2 : ℚ) ^ b.exponent := mul_pos b.below_pos (by positivity)
  exact .of_near (by rwa [sub_self]) (by rwa [sub_self])

/-- The interval by its ends. They belong to it if the pattern is even. -/
theorem covers_iff {b : Binary} {x : ℚ} : b.Covers x ↔
    if b.mantissa % 2 = 0 then
      (b.mantissa - b.below) * (2 : ℚ) ^ b.exponent ≤ x ∧
        x ≤ (b.mantissa + 1 / 2) * (2 : ℚ) ^ b.exponent
    else
      (b.mantissa - b.below) * (2 : ℚ) ^ b.exponent < x ∧
        x < (b.mantissa + 1 / 2) * (2 : ℚ) ^ b.exponent := by
  have hpos : (0 : ℚ) < (2 : ℚ) ^ b.exponent := by positivity
  rw [← le_div_iff₀ hpos, ← div_le_iff₀ hpos, ← lt_div_iff₀ hpos, ← div_lt_iff₀ hpos]
  split
  · next heven =>
      constructor
      · intro h
        exact ⟨h.low, h.high⟩
      · intro h
        exact ⟨h.1, h.2, fun hodd => by omega⟩
  · next hodd =>
      constructor
      · intro h
        exact h.odd (by omega)
      · intro h
        exact ⟨h.1.le, h.2.le, fun _ => h⟩

/-! ## The interval over one denominator -/

section Scaled

variable (b : Binary)

theorem scaled_denominator_pos : 0 < b.scaled.denominator := by
  simp only [scaled, Nat.pow_eq]
  positivity

theorem scaled_unit : ((2 ^ (b.exponent - 2).toNat : Nat) : ℚ) / b.scaled.denominator =
    (2 : ℚ) ^ b.exponent / 4 := by
  have hpow := zpow_eq_div 2 (b.exponent - 2)
  rw [Nat.cast_ofNat, zpow_sub₀ two_ne_zero] at hpow
  simp only [scaled, Nat.pow_eq]
  rw [← hpow]
  norm_num

theorem scaled_value : (b.scaled.value : ℚ) / b.scaled.denominator = b.value := by
  have hunit := b.scaled_unit
  have hparts : b.scaled.value = 4 * b.mantissa * 2 ^ (b.exponent - 2).toNat := rfl
  rw [hparts, Nat.cast_mul, mul_div_assoc, hunit, value]
  push_cast
  ring

theorem scaled_high : (b.scaled.high : ℚ) / b.scaled.denominator =
    (b.mantissa + 1 / 2) * (2 : ℚ) ^ b.exponent := by
  have hunit := b.scaled_unit
  have hparts : b.scaled.high = (4 * b.mantissa + 2) * 2 ^ (b.exponent - 2).toNat := rfl
  rw [hparts, Nat.cast_mul, mul_div_assoc, hunit]
  push_cast
  ring

theorem scaled_low (hpos : 0 < b.mantissa) : (b.scaled.low : ℚ) / b.scaled.denominator =
    (b.mantissa - b.below) * (2 : ℚ) ^ b.exponent := by
  have hunit := b.scaled_unit
  have hparts : b.scaled.low =
      (4 * b.mantissa - if b.narrowBelow then 1 else 2) * 2 ^ (b.exponent - 2).toNat := rfl
  rw [hparts, Nat.cast_mul, mul_div_assoc, hunit, below]
  split
  · rw [Nat.cast_sub (by omega)]
    push_cast
    ring
  · rw [Nat.cast_sub (by omega)]
    push_cast
    ring

end Scaled

end Binary

namespace Decimal

/-! ## One grid -/

theorem grid_cast (den c : Nat) (k : Int) :
    ((c * (den * 10 ^ k.toNat) : Nat) : ℚ) =
      c * (10 : ℚ) ^ k * ((den * 10 ^ (-k).toNat : Nat) : ℚ) := by
  have hpow := zpow_eq_div 10 k
  rw [Nat.cast_ofNat] at hpow
  rw [hpow]
  push_cast
  field_simp

theorem scale_cast {den : Nat} (hden : 0 < den) (a : Nat) (k : Int) :
    ((a * 10 ^ (-k).toNat : Nat) : ℚ) = (a : ℚ) / den * ((den * 10 ^ (-k).toNat : Nat) : ℚ) := by
  have hden' : (den : ℚ) ≠ 0 := by exact_mod_cast hden.ne'
  push_cast
  field_simp

section Grid

variable {b : Binary} (k : Int)

/-- A point of the grid passes exactly if it is rounded to the double. -/
theorem readsBack_iff (hpos : 0 < b.mantissa) (c : Nat) :
    readsBack (b.mantissa % 2 = 0) b.scaled (Nat.pow 10 (-k).toNat)
      (c * (b.scaled.denominator * Nat.pow 10 k.toNat)) = true ↔ b.Covers (c * (10 : ℚ) ^ k) := by
  have hden := b.scaled_denominator_pos
  have hscale : (0 : ℚ) < ((b.scaled.denominator * 10 ^ (-k).toNat : Nat) : ℚ) := by
    exact_mod_cast Nat.mul_pos hden (by positivity)
  have hlow := scale_cast hden b.scaled.low k
  have hhigh := scale_cast hden b.scaled.high k
  rw [b.scaled_low hpos] at hlow
  rw [b.scaled_high] at hhigh
  rw [Binary.covers_iff]
  unfold readsBack
  simp only [Nat.pow_eq, decide_eq_true_eq]
  split
  · simp only [Bool.and_eq_true, decide_eq_true_eq]
    rw [← Nat.cast_le (α := ℚ), ← Nat.cast_le (α := ℚ), hlow, hhigh, grid_cast,
      mul_le_mul_iff_left₀ hscale, mul_le_mul_iff_left₀ hscale]
  · simp only [Bool.and_eq_true, decide_eq_true_eq]
    rw [← Nat.cast_lt (α := ℚ), ← Nat.cast_lt (α := ℚ), hlow, hhigh, grid_cast,
      mul_lt_mul_iff_left₀ hscale, mul_lt_mul_iff_left₀ hscale]

theorem grid_neighbours : ∃ under rest : Nat,
    under = b.scaled.value * Nat.pow 10 (-k).toNat / (b.scaled.denominator * Nat.pow 10 k.toNat) ∧
    rest = b.scaled.value * Nat.pow 10 (-k).toNat % (b.scaled.denominator * Nat.pow 10 k.toNat) ∧
    (under : ℚ) * (10 : ℚ) ^ k ≤ b.value ∧ b.value < (under + 1 : Nat) * (10 : ℚ) ^ k ∧
    (rest = 0 → (under : ℚ) * (10 : ℚ) ^ k = b.value) := by
  have hden := b.scaled_denominator_pos
  have hscale : (0 : ℚ) < ((b.scaled.denominator * 10 ^ (-k).toNat : Nat) : ℚ) := by
    exact_mod_cast Nat.mul_pos hden (by positivity)
  have hunit : 0 < b.scaled.denominator * 10 ^ k.toNat := Nat.mul_pos hden (by positivity)
  have hvalue := scale_cast hden b.scaled.value k
  rw [b.scaled_value] at hvalue
  refine ⟨_, _, rfl, rfl, ?_, ?_, ?_⟩
  · have hle := Nat.div_mul_le_self (b.scaled.value * 10 ^ (-k).toNat)
      (b.scaled.denominator * 10 ^ k.toNat)
    rw [← Nat.cast_le (α := ℚ), hvalue, grid_cast, mul_le_mul_iff_left₀ hscale] at hle
    exact hle
  · have hlt := Nat.lt_div_mul_add (a := b.scaled.value * 10 ^ (-k).toNat) hunit
    rw [← Nat.succ_mul, ← Nat.cast_lt (α := ℚ), hvalue, grid_cast,
      mul_lt_mul_iff_left₀ hscale] at hlt
    exact hlt
  · intro hrest
    have heq := Nat.div_mul_cancel (Nat.dvd_of_mod_eq_zero hrest)
    have hcast := congrArg (Nat.cast (R := ℚ)) heq
    simp only [Nat.pow_eq] at hcast ⊢
    rw [hvalue, grid_cast] at hcast
    exact mul_right_cancel₀ hscale.ne' hcast

theorem onGrid?_covers (hpos : 0 < b.mantissa) {d : Decimal}
    (h : onGrid? (b.mantissa % 2 = 0) b.scaled k = some d) : b.Covers d.value := by
  obtain ⟨under, rest, hunder, hrest, -, -, hexact⟩ := grid_neighbours (b := b) k
  unfold onGrid? at h
  simp only [← hunder, ← hrest] at h
  split at h
  · next hzero =>
      cases h
      rw [Decimal.value, hexact hzero]
      exact b.covers_value
  · split at h
    · next hdown =>
        cases h
        rw [Bool.and_eq_true] at hdown
        exact (readsBack_iff k hpos under).mp hdown.1
    · split at h
      · next hup =>
          cases h
          exact (readsBack_iff k hpos (under + 1)).mp hup
      · cases h

/-- A grid narrower than the interval has a point in it. -/
theorem onGrid?_isSome (hpos : 0 < b.mantissa)
    (hnarrow : (10 : ℚ) ^ k < 2 * (b.below * (2 : ℚ) ^ b.exponent)) :
    (onGrid? (b.mantissa % 2 = 0) b.scaled k).isSome := by
  obtain ⟨under, rest, hunder, hrest, hlow, hhigh, -⟩ := grid_neighbours (b := b) k
  have hstep : ((under + 1 : Nat) : ℚ) * (10 : ℚ) ^ k = under * (10 : ℚ) ^ k + (10 : ℚ) ^ k := by
    push_cast
    ring
  -- One of the neighbours is at most half a step away.
  have hnear : b.Covers (under * (10 : ℚ) ^ k) ∨ b.Covers ((under + 1 : Nat) * (10 : ℚ) ^ k) := by
    rcases le_total (b.value - under * (10 : ℚ) ^ k) ((10 : ℚ) ^ k / 2) with hclose | hfar
    · exact .inl (.of_near (by linarith) (by linarith))
    · exact .inr (.of_near (by linarith) (by linarith))
  rw [← readsBack_iff k hpos, ← readsBack_iff k hpos] at hnear
  unfold onGrid?
  simp only [← hunder, ← hrest]
  split
  · rfl
  · by_cases hup : readsBack (b.mantissa % 2 = 0) b.scaled (Nat.pow 10 (-k).toNat)
        ((under + 1) * (b.scaled.denominator * Nat.pow 10 k.toNat)) = true
    · rw [hup]
      split <;> rfl
    · rw [hnear.resolve_right hup, Bool.eq_false_of_not_eq_true hup]
      rfl

end Grid

/-! ## The search -/

theorem search_covers {b : Binary} (hpos : 0 < b.mantissa) (magnitude : Int) {left used : Nat}
    (hleft : 0 < left)
    (hlast : (onGrid? (b.mantissa % 2 = 0) b.scaled (magnitude - (used + left : Nat))).isSome) :
    b.Covers (search (b.mantissa % 2 = 0) b.scaled magnitude left used).value := by
  induction left generalizing used with
  | zero => omega
  | succ left ih =>
      unfold search
      split
      · next d hd => exact onGrid?_covers _ hpos hd
      · next hnone =>
          cases left with
          | zero =>
              rw [hnone] at hlast
              cases hlast
          | succ left =>
              refine ih (Nat.succ_pos left) ?_
              rwa [show used + 1 + (left + 1) = used + (left + 1 + 1) by omega]

theorem digitCount_pos (n : Nat) : 0 < digitCount n := Nat.length_repr_pos

theorem lt_pow_digitCount (n : Nat) : n < 10 ^ digitCount n :=
  (Nat.length_repr_le_iff (digitCount_pos n)).mp (Nat.le_refl _)

theorem pow_pred_digitCount_le {n : Nat} (hn : 0 < n) : 10 ^ (digitCount n - 1) ≤ n := by
  have hpos := digitCount_pos n
  by_cases hone : digitCount n = 1
  · rw [hone]
    exact hn
  · by_contra hlt
    have hle := (Nat.length_repr_le_iff (k := digitCount n - 1) (by omega)).mpr (not_le.mp hlt)
    change digitCount n ≤ digitCount n - 1 at hle
    omega

theorem pow_magnitude_le {num den : Nat} (hnum : 0 < num) (hden : 0 < den) :
    (10 : ℚ) ^ (magnitude num den - 1) ≤ (num : ℚ) / den := by
  have hden' : (0 : ℚ) < den := by exact_mod_cast hden
  unfold magnitude
  split
  · next hle =>
      have hquotient : 0 < num / den := Nat.div_pos hle hden
      have hcount := digitCount_pos (num / den)
      have hpow : 10 ^ (digitCount (num / den) - 1) * den ≤ num := calc
        10 ^ (digitCount (num / den) - 1) * den ≤ num / den * den :=
          Nat.mul_le_mul_right den (pow_pred_digitCount_le hquotient)
        _ ≤ num := Nat.div_mul_le_self num den
      rw [le_div_iff₀ hden', show (digitCount (num / den) : Int) - 1 =
        ((digitCount (num / den) - 1 : Nat) : Int) by omega, zpow_natCast]
      exact_mod_cast hpow
  · next hlt =>
      -- The inverse of the quotient has at most that many digits.
      have hpow : den ≤ num * 10 ^ digitCount ((den - 1) / num) := by
        have hdigits := lt_pow_digitCount ((den - 1) / num)
        rw [Nat.div_lt_iff_lt_mul hnum, Nat.mul_comm] at hdigits
        omega
      rw [show 1 - (digitCount ((den - 1) / num) : Int) - 1 =
        -(digitCount ((den - 1) / num) : Int) by omega, zpow_neg, zpow_natCast,
        inv_le_comm₀ (by positivity) (by positivity), inv_div,
        div_le_iff₀ (by exact_mod_cast hnum), mul_comm]
      exact_mod_cast hpow

/-- With seventeen digits the grid is narrower than the interval. -/
theorem seventeen_digits {b : Binary} (hfits : b.Fits) {magnitude : Int}
    (hmagnitude : (10 : ℚ) ^ (magnitude - 1) ≤ b.value) :
    (10 : ℚ) ^ (magnitude - (17 : Nat)) < 2 * (b.below * (2 : ℚ) ^ b.exponent) := by
  have hunit : (0 : ℚ) < (2 : ℚ) ^ b.exponent := by positivity
  have hgrid : (10 : ℚ) ^ (magnitude - (17 : Nat)) * 10 ^ 16 ≤
      b.mantissa * (2 : ℚ) ^ b.exponent := by
    have hpow : (10 : ℚ) ^ (magnitude - (17 : Nat)) * 10 ^ 16 = (10 : ℚ) ^ (magnitude - 1) := by
      rw [← zpow_natCast, ← zpow_add₀ (by norm_num)]
      congr 1
      push_cast
      ring
    rw [hpow]
    exact hmagnitude
  -- The digits of a double are fewer than sixteen places tell apart, also in units of half a gap.
  have hdigits : (b.mantissa : ℚ) < 2 * b.below * 10 ^ 16 := by
    unfold Binary.below
    split
    · next hnarrow =>
        rw [hfits.narrow hnarrow]
        norm_num
    · have hbound : (b.mantissa : ℚ) < 2 ^ 53 := by exact_mod_cast hfits.bound
      linarith
  have hlt := mul_lt_mul_of_pos_right hdigits hunit
  linarith

theorem trimZeros_value (fuel : Nat) (d : Decimal) : (trimZeros fuel d).value = d.value := by
  induction fuel generalizing d with
  | zero => rfl
  | succ fuel ih =>
      unfold trimZeros
      split
      · next hzero =>
          rw [Bool.and_eq_true, decide_eq_true_eq] at hzero
          obtain ⟨n, hn⟩ := Nat.dvd_of_mod_eq_zero hzero.1
          rw [ih, value, value, hn, Nat.mul_div_cancel_left n (by decide),
            zpow_add_one₀ (by norm_num)]
          push_cast
          ring
      · rfl

/-- The shortest decimal of a double lies in its interval. -/
theorem shortest_covers {b : Binary} (hfits : b.Fits) (hpos : 0 < b.mantissa) :
    b.Covers (shortest b).value := by
  have hvalue : 0 < b.scaled.value := by
    simp only [Binary.scaled, Nat.pow_eq]
    positivity
  have hmagnitude := pow_magnitude_le hvalue b.scaled_denominator_pos
  rw [b.scaled_value] at hmagnitude
  have hlast := onGrid?_isSome _ hpos (seventeen_digits hfits hmagnitude)
  unfold shortest
  rw [if_neg hpos.ne', trimZeros_value]
  refine search_covers hpos _ (by decide) ?_
  rwa [Nat.zero_add]

end Decimal

end Scribe
