import Mathlib
import Scribe.Value.Basic

/-!
# Equality of values

Equality is symmetric and transitive, and a value equals itself exactly when no number in it is
not-a-number. Values that are equal have the same kind, and arrays that are equal have elements that
are equal one by one.
-/

namespace Scribe

namespace Value

/-! ## Numbers -/

section Numbers

open Float.Model (UnpackedFloat)

theorem float_beq_iff (f g : Float) :
    (f == g) = true ↔ f.toModel.unpack.beq g.toModel.unpack = true := Iff.rfl

theorem float_isNaN_iff (f : Float) : f.isNaN = true ↔ f.toModel.unpack = .notANumber :=
  UnpackedFloat.isNaN_iff

theorem float_beq_symm {f g : Float} (h : (f == g) = true) : (g == f) = true := by
  rw [float_beq_iff, UnpackedFloat.beq_iff_ne_notANumber_and_eq] at *
  obtain ⟨hf, hg, heq | ⟨hpos, hneg⟩ | ⟨hneg, hpos⟩⟩ := h
  · exact ⟨hg, hf, .inl heq.symm⟩
  · exact ⟨hg, hf, .inr (.inr ⟨hneg, hpos⟩)⟩
  · exact ⟨hg, hf, .inr (.inl ⟨hpos, hneg⟩)⟩

theorem float_beq_trans {f g k : Float} (h : (f == g) = true) (h' : (g == k) = true) :
    (f == k) = true := by
  rw [float_beq_iff, UnpackedFloat.beq_iff_ne_notANumber_and_eq] at *
  refine ⟨h.1, h'.2.1, ?_⟩
  -- A zero in the middle has its own sign or the other one on each side.
  grind

theorem float_beq_self_iff (f : Float) : (f == f) = true ↔ f.isNaN = false := by
  rw [float_beq_iff, UnpackedFloat.beq_iff_ne_notANumber_and_eq, ← Bool.not_eq_true,
    float_isNaN_iff]
  exact ⟨fun h => h.1, fun h => ⟨h, h, .inl rfl⟩⟩

end Numbers

mutual

def numbers : Value → List Float
  | .number f => [f]
  | .array vs => numbersOf vs
  | .null | .boolean _ | .string _ => []

def numbersOf : List Value → List Float
  | [] => []
  | v :: vs => v.numbers ++ numbersOf vs

end

/-! ## What equals a value -/

section

variable {w : Value}

theorem equal_null_iff : equal .null w = true ↔ w = .null := by
  cases w <;> simp [equal]

theorem equal_boolean_iff {a : Bool} : equal (.boolean a) w = true ↔ w = .boolean a := by
  cases w <;> simp [equal, @eq_comm _ a]

theorem equal_number_iff {f : Float} :
    equal (.number f) w = true ↔ ∃ g, w = .number g ∧ (f == g) = true := by
  cases w <;> simp [equal]

theorem equal_string_iff {text : Bytes} : equal (.string text) w = true ↔ w = .string text := by
  cases w <;> simp [equal, @eq_comm _ text]

theorem equal_array_iff {vs : List Value} :
    equal (.array vs) w = true ↔ ∃ ws, w = .array ws ∧ equalAll vs ws = true := by
  cases w <;> simp [equal]

end

theorem equalAll_iff {vs ws : List Value} :
    equalAll vs ws = true ↔ List.Forall₂ (fun v w => equal v w = true) vs ws := by
  induction vs generalizing ws with
  | nil => cases ws <;> simp [equalAll]
  | cons v vs ih => cases ws <;> simp [equalAll, ih]

theorem kind_eq_of_equal {v w : Value} (h : v.equal w = true) : v.kind = w.kind := by
  cases v with
  | null => rw [equal_null_iff.mp h]
  | boolean a => rw [equal_boolean_iff.mp h]
  | number f => obtain ⟨g, rfl, -⟩ := equal_number_iff.mp h; rfl
  | string text => rw [equal_string_iff.mp h]
  | array vs => obtain ⟨ws, rfl, -⟩ := equal_array_iff.mp h; rfl

theorem elems_equal {v w : Value} (h : v.equal w = true) :
    List.Forall₂ (fun v w => equal v w = true) v.elems w.elems := by
  cases v with
  | array vs =>
      obtain ⟨ws, rfl, hall⟩ := equal_array_iff.mp h
      exact equalAll_iff.mp hall
  | null => rw [equal_null_iff.mp h]; exact .nil
  | boolean a => rw [equal_boolean_iff.mp h]; exact .nil
  | number f => obtain ⟨g, rfl, -⟩ := equal_number_iff.mp h; exact .nil
  | string text => rw [equal_string_iff.mp h]; exact .nil

/-! ## Laws -/

mutual

theorem equal_symm : (v : Value) → {w : Value} → v.equal w = true → w.equal v = true
  | .null, w, h => by rw [equal_null_iff.mp h]; rfl
  | .boolean a, w, h => by rw [equal_boolean_iff.mp h]; exact equal_boolean_iff.mpr rfl
  | .number f, w, h => by
      obtain ⟨g, rfl, heq⟩ := equal_number_iff.mp h
      exact equal_number_iff.mpr ⟨f, rfl, float_beq_symm heq⟩
  | .string text, w, h => by rw [equal_string_iff.mp h]; exact equal_string_iff.mpr rfl
  | .array vs, w, h => by
      obtain ⟨ws, rfl, hall⟩ := equal_array_iff.mp h
      exact equal_array_iff.mpr ⟨vs, rfl, equalAll_symm vs hall⟩

theorem equalAll_symm : (vs : List Value) → {ws : List Value} → equalAll vs ws = true →
    equalAll ws vs = true
  | [], [], _ => rfl
  | v :: vs, w :: ws, h => by
      rw [equalAll, Bool.and_eq_true] at *
      exact ⟨equal_symm v h.1, equalAll_symm vs h.2⟩

end

mutual

theorem equal_trans : (u : Value) → {v w : Value} → u.equal v = true → v.equal w = true →
    u.equal w = true
  | .null, v, w, h, h' => by rwa [equal_null_iff.mp h] at h'
  | .boolean a, v, w, h, h' => by rwa [equal_boolean_iff.mp h] at h'
  | .number f, v, w, h, h' => by
      obtain ⟨g, rfl, heq⟩ := equal_number_iff.mp h
      obtain ⟨k, rfl, heq'⟩ := equal_number_iff.mp h'
      exact equal_number_iff.mpr ⟨k, rfl, float_beq_trans heq heq'⟩
  | .string text, v, w, h, h' => by rwa [equal_string_iff.mp h] at h'
  | .array us, v, w, h, h' => by
      obtain ⟨vs, rfl, hall⟩ := equal_array_iff.mp h
      obtain ⟨ws, rfl, hall'⟩ := equal_array_iff.mp h'
      exact equal_array_iff.mpr ⟨ws, rfl, equalAll_trans us hall hall'⟩

theorem equalAll_trans : (us : List Value) → {vs ws : List Value} → equalAll us vs = true →
    equalAll vs ws = true → equalAll us ws = true
  | [], [], [], _, _ => rfl
  | u :: us, v :: vs, w :: ws, h, h' => by
      rw [equalAll, Bool.and_eq_true] at *
      exact ⟨equal_trans u h.1 h'.1, equalAll_trans us h.2 h'.2⟩

end

mutual

theorem equal_self_iff : (v : Value) → (v.equal v = true ↔ ∀ f ∈ v.numbers, f.isNaN = false)
  | .null => by simp [equal, numbers]
  | .boolean a => by simp [equal, numbers]
  | .number f => by
      rw [equal, float_beq_self_iff, numbers, List.forall_mem_singleton]
  | .string text => by simp [equal, numbers]
  | .array vs => by rw [equal, equalAll_self_iff vs, numbers]

theorem equalAll_self_iff : (vs : List Value) →
    (equalAll vs vs = true ↔ ∀ f ∈ numbersOf vs, f.isNaN = false)
  | [] => by simp [equalAll, numbersOf]
  | v :: vs => by
      rw [equalAll, Bool.and_eq_true, equal_self_iff v, equalAll_self_iff vs, numbersOf,
        List.forall_mem_append]

end

/-- Equality is a partial equivalence, which only not-a-number keeps from being reflexive. Of two
values that are equal, both have the same kind and the same number of elements. -/
theorem equal_partialEquivalence (u v w : Value) :
    u.equal v = v.equal u ∧
      (u.equal v = true → v.equal w = true → u.equal w = true) ∧
      (v.equal v = true ↔ ∀ f ∈ v.numbers, f.isNaN = false) ∧
      (u.equal v = true → u.kind = v.kind ∧ u.elems.length = v.elems.length) := by
  refine ⟨?_, equal_trans u, equal_self_iff v, fun h => ⟨kind_eq_of_equal h, ?_⟩⟩
  · rw [Bool.eq_iff_iff]
    exact ⟨equal_symm u, equal_symm v⟩
  · exact (elems_equal h).length_eq

/-- The two zeros are equal at any depth. -/
theorem nested_zeros_equal :
    let u : Value := .array [.array [.number 0.0], .string (utf8 "a")]
    let v : Value := .array [.array [.number (-0.0)], .string (utf8 "a")]
    (u.equal v = true ∧ v.equal u = true) ∧ u.equal u = true ∧
      u.kind = v.kind ∧ u.elems.length = v.elems.length := by
  intro u v
  have hthere : u.equal v = true := by decide
  have hback : v.equal u = true := by decide
  obtain ⟨-, htrans, -, hsame⟩ := equal_partialEquivalence u v u
  exact ⟨⟨hthere, hback⟩, htrans hthere hback, hsame hthere⟩

end Value

end Scribe
