import Scribe.Program
import Scribe.Proofs.Machine.Levels

/-!
# The limit of the parser and the limit of a run

A program is made and run under one limit. The parser counts its productions, a run counts the
nodes of the tree, and a declaration is a node that no production counts. So a program can be
within the limit when it is made and beyond it when it is run.
-/

namespace Scribe

/-- No statement of the program of `source` is too deep for a run under the limit that the program
was made with. -/
def LimitsAgree (source : Bytes) (o : Options) : Prop :=
  ∀ m : Machine, m.depth = 0 → ∀ s ∈ (Program.ofSource source o.limit).stmts,
    ¬ Upshot.TooDeep (execute o s m)

theorem execute_tooDeep_iff {o : Options} (hlive : o.cancelled = false) (s : Stmt) {m : Machine}
    (hdepth : m.depth ≤ o.limit) :
    Upshot.TooDeep (execute o s m) ↔ o.limit < m.depth + s.levels o m :=
  (execute_uses hlive s m).tooDeep_iff hdepth

/-- The limits agree on a text exactly if none of its statements enters more levels than the limit
admits. -/
theorem limitsAgree_iff (source : Bytes) {o : Options} (hlive : o.cancelled = false) :
    LimitsAgree source o ↔ ∀ m : Machine, m.depth = 0 →
      ∀ s ∈ (Program.ofSource source o.limit).stmts, s.levels o m ≤ o.limit := by
  have hstmt : ∀ m : Machine, m.depth = 0 → ∀ s : Stmt,
      ¬ Upshot.TooDeep (execute o s m) ↔ s.levels o m ≤ o.limit := by
    intro m hdepth s
    have hle : m.depth ≤ o.limit := by omega
    rw [execute_tooDeep_iff hlive s hle, hdepth]
    omega
  constructor
  · intro h m hdepth s hs
    exact (hstmt m hdepth s).mp (h m hdepth s hs)
  · intro h m hdepth s hs
    exact (hstmt m hdepth s).mpr (h m hdepth s hs)

/-- The only statement of `let x = nil;`. -/
def letNil : Stmt := .declare ⟨.identifier, [0x78], .null, 1⟩ (.literal .null 1)

theorem letNil_levels (o : Options) (m : Machine) : letNil.levels o m = 2 := rfl

/-- With two levels, `let x = nil;` is made and run. -/
theorem limitsAgree_letNil : LimitsAgree (utf8 "let x = nil;") { limit := 2 } := by
  have hmade : (Program.ofSource (utf8 "let x = nil;") 2).stmts = [letNil] := by cbv
  refine (limitsAgree_iff (utf8 "let x = nil;") rfl).mpr ?_
  intro m _ s hs
  rw [hmade, List.mem_singleton] at hs
  rw [hs]
  exact Nat.le_of_eq (letNil_levels _ m)

/-- With one level, `let x = nil;` is made and cannot be run. -/
theorem limits_disagree : ¬ ∀ (source : Bytes) (o : Options), 1 ≤ o.limit → o.cancelled = false →
    LimitsAgree source o := by
  intro h
  have hmade : (Program.ofSource (utf8 "let x = nil;") 1).stmts = [letNil] := by cbv
  have hagree := h (utf8 "let x = nil;") { limit := 1 } (Nat.le_refl 1) rfl
  have hsettled := hagree ⟨.ofTop (.ofList []), .unlimited, 0, []⟩ rfl letNil (by rw [hmade]; simp)
  rw [execute_tooDeep_iff rfl letNil (Nat.zero_le 1), letNil_levels] at hsettled
  exact hsettled (by decide)

end Scribe
