import Mathlib.Data.List.TakeWhile
import Scribe.Text.Bytes

/-!
# Texts cut at a mark

Where the first mark of a text stands decides how the text is cut.
-/

namespace Scribe

namespace Bytes

variable {mark : UInt8} {before text : Bytes}

theorem cut?_of_not_mem (h : mark ∉ text) : cut? mark text = none := by
  have hpass : ∀ b ∈ text, decide (b ≠ mark) = true :=
    fun b hb => decide_eq_true fun heq => h (heq ▸ hb)
  have hall : text.dropWhile (· ≠ mark) = [] := List.dropWhile_eq_nil_iff.mpr hpass
  simp only [cut?, hall]

theorem cut?_append (h : mark ∉ before) (after : Bytes) :
    cut? mark (before ++ mark :: after) = some (before, after) := by
  have hpass : ∀ b ∈ before, decide (b ≠ mark) = true :=
    fun b hb => decide_eq_true fun heq => h (heq ▸ hb)
  have hmark : decide (mark ≠ mark) = false := by simp
  simp only [cut?, List.dropWhile_append_of_pos hpass, List.takeWhile_append_of_pos hpass,
    List.dropWhile_cons, List.takeWhile_cons, hmark, Bool.false_eq_true, if_false,
    List.append_nil]

theorem splitOn_of_not_mem (h : mark ∉ text) : splitOn mark text = [text] := by
  rw [splitOn]
  split
  · rfl
  · next hcut =>
      rw [cut?_of_not_mem h] at hcut
      cases hcut

theorem splitOn_append (h : mark ∉ before) (after : Bytes) :
    splitOn mark (before ++ mark :: after) = before :: splitOn mark after := by
  rw [splitOn]
  split
  · next hcut =>
      rw [cut?_append h] at hcut
      cases hcut
  · next hcut =>
      rw [cut?_append h] at hcut
      cases hcut
      rfl

/-- What stands in front of a text belongs to its first piece. -/
theorem splitOn_behind (h : mark ∉ before) (text : Bytes) :
    ∃ piece pieces, splitOn mark text = piece :: pieces ∧
      splitOn mark (before ++ text) = (before ++ piece) :: pieces := by
  by_cases hmark : mark ∈ text
  · obtain ⟨piece, after, rfl, hpiece⟩ := List.eq_append_cons_of_mem hmark
    have hboth : mark ∉ before ++ piece := by simp [h, hpiece]
    refine ⟨piece, splitOn mark after, splitOn_append hpiece after, ?_⟩
    rw [← List.append_assoc, splitOn_append hboth]
  · have hboth : mark ∉ before ++ text := by simp [h, hmark]
    exact ⟨text, [], splitOn_of_not_mem hmark, splitOn_of_not_mem hboth⟩

theorem not_mem_of_mem_splitOn {piece : Bytes} (h : piece ∈ splitOn mark text) : mark ∉ piece := by
  induction hlen : text.length using Nat.strongRecOn generalizing text with
  | ind n ih =>
      by_cases hmark : mark ∈ text
      · obtain ⟨first, after, rfl, hfirst⟩ := List.eq_append_cons_of_mem hmark
        rw [splitOn_append hfirst, List.mem_cons] at h
        rcases h with rfl | h
        · exact hfirst
        · have hshorter : after.length < n := by
            rw [← hlen, List.length_append, List.length_cons]
            omega
          exact ih _ hshorter h rfl
      · rw [splitOn_of_not_mem hmark, List.mem_singleton] at h
        rwa [h]

/-- What stands behind the last mark of a text, or the whole text. -/
def lastPiece (mark : UInt8) (text : Bytes) : Bytes := (splitOn mark text).getLastD []

/-- What stands behind a text goes on with its last piece. -/
theorem splitOn_lastPiece (mark : UInt8) (text : Bytes) : mark ∉ lastPiece mark text ∧
    ∃ pieces, ∀ more, splitOn mark (text ++ more) =
      pieces ++ splitOn mark (lastPiece mark text ++ more) := by
  induction hlen : text.length using Nat.strongRecOn generalizing text with
  | ind n ih =>
      by_cases hmark : mark ∈ text
      · obtain ⟨piece, after, rfl, hpiece⟩ := List.eq_append_cons_of_mem hmark
        have hshorter : after.length < n := by
          rw [← hlen, List.length_append, List.length_cons]
          omega
        obtain ⟨hlast, pieces, hpieces⟩ := ih _ hshorter after rfl
        have hsame : lastPiece mark (piece ++ mark :: after) = lastPiece mark after := by
          have hsplit := hpieces []
          rw [List.append_nil, List.append_nil, splitOn_of_not_mem hlast] at hsplit
          rw [lastPiece, splitOn_append hpiece, hsplit, ← List.cons_append, List.getLastD_concat]
        refine ⟨hsame ▸ hlast, piece :: pieces, fun more => ?_⟩
        rw [hsame, List.append_assoc, List.cons_append, splitOn_append hpiece, hpieces more,
          List.cons_append]
      · have hsame : lastPiece mark text = text := by
          rw [lastPiece, splitOn_of_not_mem hmark]
          rfl
        exact ⟨by rwa [hsame], [], fun more => by rw [hsame, List.nil_append]⟩

theorem lastPiece_append_mark (mark : UInt8) (text : Bytes) :
    lastPiece mark (text ++ [mark]) = [] := by
  obtain ⟨hlast, pieces, hpieces⟩ := splitOn_lastPiece mark text
  rw [lastPiece, hpieces, splitOn_append hlast, splitOn_of_not_mem List.not_mem_nil,
    List.append_cons, List.getLastD_concat]

end Bytes

end Scribe
