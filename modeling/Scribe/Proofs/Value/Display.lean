import Scribe.Proofs.Decimal.RoundTrip
import Scribe.Proofs.Text.Quoted
import Scribe.Value.Display

/-!
# The lines of a value's text

Only a string at the top keeps its line feeds when it is written. A string inside an array is
quoted, and no other value has a line feed to write.
-/

namespace Scribe

namespace Quoted

theorem lineFeed_not_mem_quoted (text : Bytes) : Bytes.lineFeed ∉ text.quoted :=
  fun h => not_control_of_mem_quoted h (by decide)

end Quoted

namespace Value

theorem lineFeed_not_mem_plain {text : Bytes} (h : Decimal.Plain text) :
    Bytes.lineFeed ∉ text := by
  cases h with
  | whole _ hdigits => exact Decimal.not_mem_digits hdigits (by decide)
  | point _ _ hdigits =>
      have hboth := Decimal.not_mem_digits hdigits (b := Bytes.lineFeed) (by decide)
      rw [List.mem_append, not_or] at hboth
      rw [List.mem_append, List.mem_cons, not_or, not_or]
      exact ⟨hboth.1, by decide, hboth.2⟩

theorem lineFeed_not_mem_number (f : Float) : Bytes.lineFeed ∉ Layout.plain.number f := by
  by_cases hnan : f.isNaN = true
  · rw [Layout.number, if_pos hnan]
    decide
  · by_cases hinf : f.isInf = true
    · rw [Layout.number, if_neg hnan, if_pos hinf]
      split <;> decide
    · rw [Bool.not_eq_true] at hnan hinf
      obtain ⟨text, htext, hplain, -⟩ := Decimal.number_plain hnan hinf
      have hfree := lineFeed_not_mem_plain hplain
      rw [htext]
      split
      · rw [List.mem_cons, not_or]
        exact ⟨by decide, hfree⟩
      · exact hfree

mutual

/-- A line feed behind the text of an element does not come from the element. -/
theorem lineFeed_mem_elementOnto : (v : Value) → {tail : Bytes} →
    Bytes.lineFeed ∈ elementOnto v tail → Bytes.lineFeed ∈ tail
  | .null, tail, h => by
      rw [elementOnto, List.mem_append] at h
      exact h.resolve_left (by decide)
  | .boolean b, tail, h => by
      rw [elementOnto, List.mem_append] at h
      exact h.resolve_left (by cases b <;> decide)
  | .number f, tail, h => by
      rw [elementOnto, List.mem_append] at h
      exact h.resolve_left (lineFeed_not_mem_number f)
  | .string text, tail, h => by
      rw [elementOnto, List.mem_append] at h
      exact h.resolve_left (Quoted.lineFeed_not_mem_quoted text)
  | .array [], tail, h => by
      rw [elementOnto, List.mem_append] at h
      exact h.resolve_left (by decide)
  | .array (v :: vs), tail, h => by
      rw [elementOnto, List.mem_cons] at h
      have helements := lineFeed_mem_elementOnto v (h.resolve_left (by decide))
      have hend := lineFeed_mem_elementsOnto vs helements
      rw [List.mem_cons] at hend
      exact hend.resolve_left (by decide)

theorem lineFeed_mem_elementsOnto : (vs : List Value) → {tail : Bytes} →
    Bytes.lineFeed ∈ elementsOnto vs tail → Bytes.lineFeed ∈ tail
  | [], tail, h => by rwa [elementsOnto] at h
  | v :: vs, tail, h => by
      rw [elementsOnto, List.mem_append] at h
      exact lineFeed_mem_elementsOnto vs
        (lineFeed_mem_elementOnto v (h.resolve_left (by decide)))

end

/-- The text of a value that is no string is one line. -/
theorem lineFeed_not_mem_display {v : Value} (h : ∀ text, v ≠ .string text) :
    Bytes.lineFeed ∉ v.display := by
  have helement : v.display = elementOnto v [] := by
    unfold display
    cases v with
    | string text => exact absurd rfl (h text)
    | array vs => cases vs <;> rw [displayOnto, elementOnto]
    | _ => rw [displayOnto, elementOnto]
  rw [helement]
  exact fun hmem => List.not_mem_nil (lineFeed_mem_elementOnto v hmem)

end Value

end Scribe
