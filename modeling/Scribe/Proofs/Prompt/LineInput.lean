import Scribe.Prompt.LineEditor
import Scribe.Proofs.Text.Runes

/-!
# The line editor as a line input
-/

namespace Scribe

namespace LineEditor

open LineInput

theorem sanitize_of_isPlain {cs : List Char} (h : ∀ c ∈ cs, isPlain c = true) :
    sanitize cs = cs := by
  have hkept : ∀ c ∈ cs, (if c = '\n' || c = '\r' || c = '\t' then some ' '
      else if isPlain c then some c else none) = some c := by
    intro c hc
    have hplain := h c hc
    rw [if_neg ?_, if_pos hplain]
    intro hcontrol
    simp only [Bool.or_eq_true, decide_eq_true_eq] at hcontrol
    rcases hcontrol with (rfl | rfl) | rfl <;> cases hplain
  rw [sanitize, List.filterMap_congr hkept, List.filterMap_some]

instance : LawfulLineInput LineEditor where
  isPlain_of_mem e := e.isPlain_of_mem
  length_text_le e := e.length_text_le
  cursor_le e := e.cursor_le
  text_setBytes e cs h := by
    change (sanitize (Bytes.ofChars cs).chars).take capacity = cs.take capacity
    rw [Bytes.chars_ofChars, sanitize_of_isPlain h]
  text_moveTo _ _ := rfl
  cursor_moveTo _ _ := rfl

end LineEditor

end Scribe
