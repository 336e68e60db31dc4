import Scribe.Proofs.Lines.Basic
import Scribe.Proofs.Token.Reading

/-!
# Scanning on other lines

A text that starts on another line is scanned to the same items. Only their lines are others.
-/

namespace Scribe

namespace Scan

variable {L : Int → Int → Prop}

structure Result.Alike (L : Int → Int → Prop) (done done' : Result) : Prop where
  tokens : List.Forall₂ (Token.Alike L) done.tokens done'.tokens
  faults : List.Forall₂ (Diagnostic.Alike L .lexical) done.faults done'.faults

namespace Result.Alike

variable {done done' : Result}

theorem nil (L : Int → Int → Prop) : Result.Alike L ⟨[], []⟩ ⟨[], []⟩ := ⟨.nil, .nil⟩

theorem add (h : Result.Alike L done done') (s : Step) {line line' : Nat} (hline : L line line') :
    Result.Alike L (done.add s line) (done'.add s line') := by
  unfold Result.add
  split
  · exact ⟨.cons ⟨rfl, rfl, rfl, hline⟩ h.tokens, h.faults⟩
  · exact h
  · exact ⟨h.tokens, .cons (.lexical hline _) h.faults⟩

end Result.Alike

/-- Corresponding lines for each line of a text that starts on two lines. -/
def Shifted (L : Int → Int → Prop) (line line' feeds : Nat) : Prop :=
  ∀ j ≤ feeds, L (line + j : Nat) (line' + j : Nat)

theorem Shifted.further {line line' a b : Nat} (h : Shifted L line line' (a + b)) :
    Shifted L (line + a) (line' + a) b := by
  intro j hj
  rw [Nat.add_assoc, Nat.add_assoc]
  exact h (a + j) (by omega)

theorem read_alike {done done' : Result} (hdone : Result.Alike L done done') {line line' : Nat}
    {rs : List Rune} (hlines : Shifted L line line' (feeds rs)) :
    Result.Alike L (read done line rs) (read done' line' rs) := by
  fun_induction read done line rs generalizing done' line' with
  | case1 done line =>
      rw [read]
      exact hdone
  | case2 done line r rest ih =>
      rw [feeds_cons] at hlines
      rw [read_cons]
      exact ih (hdone.add _ (hlines _ (Nat.le_add_right _ _))) hlines.further

theorem reading_alike {line line' : Nat} {text : Bytes}
    (hlines : Shifted L line line' (text.count Bytes.lineFeed)) :
    Result.Alike L (reading line text) (reading line' text) := by
  rw [← feeds_runes] at hlines
  exact read_alike (.nil L) hlines

theorem endOfText_alike {line line' feeds : Nat} (hlines : Shifted L line line' feeds) :
    (Token.endOfText (line + feeds : Nat)).Alike L (Token.endOfText (line' + feeds : Nat)) :=
  ⟨rfl, rfl, rfl, hlines feeds (Nat.le_refl _)⟩

end Scan

end Scribe
