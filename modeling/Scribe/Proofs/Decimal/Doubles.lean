import Mathlib
import Scribe.Decimal.Layout
import Scribe.Decimal.Nearest

/-!
# Doubles and their patterns

A pattern is a sign, an exponent and a fraction. A finite double is the number of its pattern, and
the opposite number has the opposite sign and the other parts.
-/

namespace Scribe

namespace Doubles

open Float.Model Float.Model.UnpackedFloat

abbrev pattern (s : Sign) (e : BitVec 11) (m : BitVec 52) : BitVec 64 :=
  packComponents .binary64 s e m

theorem pattern_toNat (s : Sign) (e : BitVec 11) (m : BitVec 52) :
    (pattern s e m).toNat = s.toBitVec.toNat * 2 ^ 63 + e.toNat * 2 ^ 52 + m.toNat := by
  have hparts : (pattern s e m).toNat = ((s.toBitVec ++ e) ++ m).toNat := rfl
  rw [hparts, BitVec.toNat_append, ← Nat.shiftLeft_add_eq_or_of_lt m.isLt, BitVec.toNat_append,
    ← Nat.shiftLeft_add_eq_or_of_lt e.isLt, Nat.shiftLeft_eq, Nat.shiftLeft_eq]
  omega

theorem exists_parts (b : BitVec 64) : ∃ s e m, b = pattern s e m := by
  have hsign : ∃ s : Sign, s.toBitVec.toNat = b.toNat / 2 ^ 63 := by
    have hb := b.isLt
    by_cases h : b.toNat / 2 ^ 63 = 0
    · exact ⟨.positive, h.symm⟩
    · exact ⟨.negative, show 1 = b.toNat / 2 ^ 63 by omega⟩
  obtain ⟨s, hs⟩ := hsign
  refine ⟨s, BitVec.ofNat 11 (b.toNat / 2 ^ 52), BitVec.ofNat 52 b.toNat, ?_⟩
  apply BitVec.eq_of_toNat_eq
  rw [pattern_toNat, hs, BitVec.toNat_ofNat, BitVec.toNat_ofNat]
  omega

theorem unpackSign_pattern (s : Sign) (e : BitVec 11) (m : BitVec 52) :
    Sign.ofBitVec (unpackSign (packComponents .binary64 s e m)) = s := by
  have hparts := pattern_toNat s e m
  have he := e.isLt
  have hm := m.isLt
  have hnat : (unpackSign (packComponents .binary64 s e m)).toNat = s.toBitVec.toNat := by
    have hbits : (unpackSign (packComponents .binary64 s e m)).toNat =
        (pattern s e m).toNat / 2 ^ 63 % 2 := by
      simp [unpackSign, Nat.shiftRight_eq_div_pow]
    have hs := s.toBitVec.isLt
    omega
  rw [BitVec.eq_of_toNat_eq hnat]
  cases s <;> rfl

theorem implicit_toNat (m : BitVec 52) : (1#1 ++ m).toNat = 2 ^ 52 + m.toNat := by
  rw [BitVec.toNat_append, ← Nat.shiftLeft_add_eq_or_of_lt m.isLt, Nat.shiftLeft_eq]
  rfl

/-- A double is finite unless its exponent is the greatest one. -/
theorem unpack_infinite {s : Sign} {e : BitVec 11} {m : BitVec 52} (h : e = -1#11) :
    (unpack .binary64 (pattern s e m)).isNaN = true ∨
      (unpack .binary64 (pattern s e m)).isInf = true := by
  unfold UnpackedFloat.unpack
  simp only [unpackMantissa_packComponents, unpackExponent_packComponents, h, if_true]
  split
  · exact .inr rfl
  · exact .inl rfl

theorem unpack_neg (s : Sign) (e : BitVec 11) (m : BitVec 52) :
    (unpack .binary64 (pattern s e m)).neg = unpack .binary64 (pattern (-s) e m) := by
  unfold UnpackedFloat.unpack
  simp only [unpackMantissa_packComponents, unpackExponent_packComponents, unpackSign_pattern]
  split
  · split <;> rfl
  · split
    · split <;> rfl
    · rfl

theorem pack_finite {s : Sign} {m : Nat} {e : Int} (hm : 0 < m) (he : e < 972) :
    pack .binary64 (.finite s m e hm) =
      if m.log2 = 52 then pattern s (BitVec.ofNat 11 (e + 1075).toNat) (BitVec.ofNat 52 m)
      else pattern s 0#11 (BitVec.ofNat 52 m) := by
  have hbias : e + (Format.exponentBias .binary64 : Nat) +
      (Format.mantissaBitsWithoutImplicit .binary64 : Nat) = e + 1075 := by
    simp only [Format.exponentBias]
    omega
  have hlog : m.log2 + 1 = Format.mantissaBits .binary64 ↔ m.log2 = 52 := by
    simp only [Format.mantissaBits]
    omega
  have hbound : ¬ 2 ^ Format.exponentBits .binary64 ≤ (e + 1075).toNat + 1 := by
    simp only
    omega
  simp only [UnpackedFloat.pack, hbias, hlog, if_neg hbound]

theorem pack_unpack {s : Sign} {e : BitVec 11} {m : BitVec 52} (h : e ≠ -1#11) :
    pack .binary64 (unpack .binary64 (pattern s e m)) = pattern s e m := by
  have hm := m.isLt
  have he : e.toNat < 2047 := by
    have hne : e.toNat ≠ 2047 := fun heq => h (BitVec.eq_of_toNat_eq heq)
    omega
  unfold UnpackedFloat.unpack
  simp only [unpackMantissa_packComponents, unpackExponent_packComponents, unpackSign_pattern,
    if_neg h, implicit_toNat, Format.exponentBias]
  split
  · next hzero =>
      subst hzero
      split
      · next hnone =>
          rw [hnone]
          rfl
      · next hsome =>
          have hpos : m.toNat ≠ 0 := fun heq => hsome (BitVec.eq_of_toNat_eq heq)
          have hlog : m.toNat.log2 < 52 := (Nat.log2_lt hpos).mpr hm
          rw [pack_finite _ (by decide), if_neg (by omega), BitVec.ofNat_toNat, BitVec.setWidth_eq]
  · next hsome =>
      have hpos : e.toNat ≠ 0 := fun heq => hsome (BitVec.eq_of_toNat_eq heq)
      have hlog : (2 ^ 52 + m.toNat).log2 = 52 := by
        have hge := (Nat.le_log2 (n := 2 ^ 52 + m.toNat) (k := 52) (by omega)).mpr (by omega)
        have hlt := (Nat.log2_lt (n := 2 ^ 52 + m.toNat) (k := 53) (by omega)).mpr (by omega)
        omega
      rw [pack_finite _ (by omega), if_pos hlog]
      congr 1
      · apply BitVec.eq_of_toNat_eq
        simp only [BitVec.toNat_ofNat]
        omega
      · apply BitVec.eq_of_toNat_eq
        simp only [BitVec.toNat_ofNat]
        omega

/-! ## Finite doubles -/

theorem eq_of_toBits_eq {f g : Float} (h : f.toBits = g.toBits) : f = g := by
  cases f with
  | ofModel f =>
      cases g with
      | ofModel g =>
          cases f
          cases g
          cases h
          rfl

theorem toBits_ofBits {u : UInt64} {s : Sign} {e : BitVec 11} {m : BitVec 52}
    (hu : u.toBitVec = pattern s e m) (he : e ≠ -1#11) : (Float.ofBits u).toBits = u := by
  have hbits : (Float.ofBits u).toBits =
      UInt64.ofBitVec (pack .binary64 (unpack .binary64 u.toBitVec)) := rfl
  rw [hbits, hu, pack_unpack he, ← hu]

theorem toBits_neg {f : Float} {s : Sign} {e : BitVec 11} {m : BitVec 52}
    (hf : f.toBits.toBitVec = pattern s e m) (he : e ≠ -1#11) :
    (-f).toBits = UInt64.ofBitVec (pattern (-s) e m) := by
  have hbits : (-f).toBits =
      UInt64.ofBitVec (pack .binary64 (unpack .binary64 f.toBits.toBitVec).neg) := rfl
  rw [hbits, hf, unpack_neg, pack_unpack he]

/-- A pattern up to that of infinity is the pattern of its double, and has no sign. -/
theorem signBit_ofBits {u : Nat} (h : u ≤ BinaryFormat.double.infinityBits) :
    Layout.signBit (Float.ofBits u.toUInt64) = false := by
  rcases Nat.eq_or_lt_of_le h with rfl | hlt
  · decide +kernel
  · have hinfinity : BinaryFormat.double.infinityBits = 2047 * 2 ^ 52 := by decide
    obtain ⟨s, e, m, hparts⟩ := exists_parts u.toUInt64.toBitVec
    have hnat := congrArg BitVec.toNat hparts
    have hbits : u.toUInt64.toBitVec.toNat = u := by
      simp only [Nat.toUInt64, UInt64.ofNat, BitVec.toNat_ofNat]
      omega
    rw [hbits, pattern_toNat] at hnat
    have he : e ≠ -1#11 := by
      rintro rfl
      have hlast : (-1#11).toNat = 2047 := by decide
      omega
    have hsmall : u.toUInt64.toNat = u := hbits
    simp only [Layout.signBit, toBits_ofBits hparts he, hsmall, decide_eq_false_iff_not]
    omega

theorem finite_parts {f : Float} (hnan : f.isNaN = false) (hinf : f.isInf = false) :
    ∃ s e m, f.toBits.toBitVec = pattern s e m ∧ e ≠ -1#11 := by
  obtain ⟨s, e, m, hparts⟩ := exists_parts f.toBits.toBitVec
  refine ⟨s, e, m, hparts, ?_⟩
  intro he
  have hunpack : f.toModel.unpack = unpack .binary64 (pattern s e m) := by
    rw [← hparts]
    rfl
  have hnan' : f.toModel.unpack.isNaN = false := hnan
  have hinf' : f.toModel.unpack.isInf = false := hinf
  rw [hunpack] at hnan' hinf'
  rcases unpack_infinite (s := s) (m := m) he with h | h
  · rw [h] at hnan'
    cases hnan'
  · rw [h] at hinf'
    cases hinf'

def unsigned (f : Float) : Nat := f.toBits.toNat % 0x8000000000000000

section Finite

variable {f : Float} (hnan : f.isNaN = false) (hinf : f.isInf = false)
include hnan hinf

theorem unsigned_lt : unsigned f < BinaryFormat.double.infinityBits := by
  obtain ⟨s, e, m, hparts, he⟩ := finite_parts hnan hinf
  have hne : e.toNat ≠ 2047 := fun heq => he (BitVec.eq_of_toNat_eq heq)
  have hnat := congrArg BitVec.toNat hparts
  rw [pattern_toNat] at hnat
  have hbits : f.toBits.toBitVec.toNat = f.toBits.toNat := rfl
  have hinfinity : BinaryFormat.double.infinityBits = 2047 * 2 ^ 52 := by decide
  have hm := m.isLt
  have hlt := e.isLt
  have hs := s.toBitVec.isLt
  unfold unsigned
  omega

theorem ofBits_unsigned :
    (if Layout.signBit f then -Float.ofBits (unsigned f).toUInt64
      else Float.ofBits (unsigned f).toUInt64) = f := by
  obtain ⟨s, e, m, hparts, he⟩ := finite_parts hnan hinf
  have hnat := congrArg BitVec.toNat hparts
  rw [pattern_toNat] at hnat
  have hbits : f.toBits.toBitVec.toNat = f.toBits.toNat := rfl
  have hm := m.isLt
  have hlt := e.isLt
  have hunsigned : (unsigned f).toUInt64.toBitVec = pattern .positive e m := by
    apply BitVec.eq_of_toNat_eq
    have hpositive : Sign.positive.toBitVec.toNat = 0 := rfl
    rw [pattern_toNat, hpositive]
    unfold unsigned
    simp only [Nat.toUInt64, UInt64.ofNat, BitVec.toNat_ofNat]
    cases s with
    | negative =>
        have hnegative : Sign.negative.toBitVec.toNat = 1 := rfl
        omega
    | positive => omega
  have hread := toBits_ofBits hunsigned he
  cases s with
  | negative =>
      have hnegative : Sign.negative.toBitVec.toNat = 1 := rfl
      have hsign : Layout.signBit f = true := by
        simp only [Layout.signBit, decide_eq_true_eq]
        omega
      rw [if_pos hsign]
      apply eq_of_toBits_eq
      rw [toBits_neg (by rw [hread]; exact hunsigned) he]
      exact congrArg UInt64.ofBitVec hparts.symm
  | positive =>
      have hpositive : Sign.positive.toBitVec.toNat = 0 := rfl
      have hsign : ¬ Layout.signBit f = true := by
        simp only [Layout.signBit, decide_eq_true_eq]
        omega
      rw [if_neg hsign]
      apply eq_of_toBits_eq
      rw [hread]
      exact (congrArg UInt64.ofBitVec hunsigned).trans (congrArg UInt64.ofBitVec hparts.symm)

end Finite

end Doubles

end Scribe
