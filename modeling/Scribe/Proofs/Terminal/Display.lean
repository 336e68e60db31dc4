import Scribe.Proofs.Text.Pieces
import Scribe.Terminal.Display

/-!
# The width of texts with several parts

Where a styled character does not run into what stands behind it, the widths of the parts of a line
add up. A part of several lines adds to the line that it starts on and to the line that it ends on.
-/

namespace Scribe

namespace Display

section

variable (d : Display)

/-- A part of a line that takes the same columns whatever stands behind it. -/
def Measured (part : Bytes) : Prop :=
  ∀ more, d.cellsOfLine (part ++ more) = d.cellsOfLine part + d.cellsOfLine more

/-- Every line of the text is measured. -/
def AllMeasured (text : Bytes) : Prop :=
  ∀ line ∈ Bytes.splitOn Bytes.lineFeed text, d.Measured line

/-- A display on which styles take no columns of their own. -/
structure Lawful : Prop where
  cellsOfLine_nil : d.cellsOfLine [] = 0
  cellsOfLine_space (more : Bytes) :
    d.cellsOfLine (Bytes.space :: more) = 1 + d.cellsOfLine more
  dots : Bytes.lineFeed ∉ d.render .hint (utf8 "...") ∧
    d.cellsOfLine (d.render .hint (utf8 "...")) = 3
  /-- What a style makes of a character does not run into what stands behind it. -/
  character (isSelected isHit : Bool) (c : Char) :
    d.AllMeasured (d.render (.candidate isSelected isHit) (utf8Char c))

end

variable {d : Display}

theorem Measured.append {a b : Bytes} (ha : d.Measured a) (hb : d.Measured b) :
    d.Measured (a ++ b) := by
  intro more
  rw [List.append_assoc, ha, hb, ha, Nat.add_assoc]

theorem allMeasured_of_line {line : Bytes} (hfeed : Bytes.lineFeed ∉ line) (h : d.Measured line) :
    d.AllMeasured line := by
  rw [AllMeasured, Bytes.splitOn_of_not_mem hfeed]
  exact List.forall_mem_singleton.mpr h

theorem allMeasured_nil (hnil : d.cellsOfLine [] = 0) : d.AllMeasured [] :=
  allMeasured_of_line List.not_mem_nil fun more => by rw [hnil, Nat.zero_add, List.nil_append]

/-- The lines of two texts one behind the other: the last of the first goes on with the first of the
second. -/
theorem splitOn_append_pieces (a b : Bytes) : ∃ front piece pieces,
    Bytes.splitOn Bytes.lineFeed a = front ++ [Bytes.lastPiece Bytes.lineFeed a] ∧
      Bytes.splitOn Bytes.lineFeed b = piece :: pieces ∧
        Bytes.splitOn Bytes.lineFeed (a ++ b) =
          front ++ (Bytes.lastPiece Bytes.lineFeed a ++ piece) :: pieces := by
  obtain ⟨hlast, front, hfront⟩ := Bytes.splitOn_lastPiece Bytes.lineFeed a
  obtain ⟨piece, pieces, hb, hboth⟩ := Bytes.splitOn_behind hlast b
  refine ⟨front, piece, pieces, ?_, hb, by rw [hfront, hboth]⟩
  have hall := hfront []
  rwa [List.append_nil, List.append_nil, Bytes.splitOn_of_not_mem hlast] at hall

theorem AllMeasured.append {a b : Bytes} (ha : d.AllMeasured a) (hb : d.AllMeasured b) :
    d.AllMeasured (a ++ b) := by
  obtain ⟨front, piece, pieces, hfront, hpieces, hboth⟩ := splitOn_append_pieces a b
  rw [AllMeasured, hfront, List.forall_mem_append, List.forall_mem_singleton] at ha
  rw [AllMeasured, hpieces, List.forall_mem_cons] at hb
  rw [AllMeasured, hboth, List.forall_mem_append, List.forall_mem_cons]
  exact ⟨ha.1, ha.2.append hb.1, hb.2⟩

theorem allMeasured_flatten (hnil : d.cellsOfLine [] = 0) {parts : List Bytes}
    (h : ∀ part ∈ parts, d.AllMeasured part) : d.AllMeasured parts.flatten := by
  induction parts with
  | nil => exact allMeasured_nil hnil
  | cons part parts ih =>
      obtain ⟨hpart, hothers⟩ := List.forall_mem_cons.mp h
      exact hpart.append (ih hothers)

theorem cellsOf_le_iff {text : Bytes} {n : Nat} : d.cellsOf text ≤ n ↔
    ∀ line ∈ Bytes.splitOn Bytes.lineFeed text, d.cellsOfLine line ≤ n := by
  have hfold : ∀ (lines : List Bytes) (widest : Nat),
      lines.foldl (fun widest line => max widest (d.cellsOfLine line)) widest ≤ n ↔
        widest ≤ n ∧ ∀ line ∈ lines, d.cellsOfLine line ≤ n := by
    intro lines
    induction lines with
    | nil => simp
    | cons line lines ih =>
        intro widest
        rw [List.foldl_cons, ih, List.forall_mem_cons, Nat.max_le, and_assoc]
  rw [cellsOf, hfold]
  exact and_iff_right (Nat.zero_le n)

theorem cellsOf_of_line {line : Bytes} (hfeed : Bytes.lineFeed ∉ line) :
    d.cellsOf line = d.cellsOfLine line := by
  rw [cellsOf, Bytes.splitOn_of_not_mem hfeed]
  exact Nat.zero_max _

theorem cellsOf_lastPiece (text : Bytes) :
    d.cellsOfLine (Bytes.lastPiece Bytes.lineFeed text) ≤ d.cellsOf text := by
  obtain ⟨front, -, -, hfront, -⟩ := splitOn_append_pieces text []
  have hall := cellsOf_le_iff.mp (Nat.le_refl (d.cellsOf text))
  exact hall _ (by simp [hfront])

namespace AllMeasured

variable {a : Bytes} (ha : d.AllMeasured a)
include ha

theorem lastPiece : d.Measured (Bytes.lastPiece Bytes.lineFeed a) := by
  obtain ⟨front, -, -, hfront, -⟩ := splitOn_append_pieces a []
  exact ha _ (by simp [hfront])

/-- A line that is appended has room where the text ends. -/
theorem cellsOf_append_line_le_iff {line : Bytes} (hfeed : Bytes.lineFeed ∉ line) {n : Nat} :
    d.cellsOf (a ++ line) ≤ n ↔ d.cellsOf a ≤ n ∧
      d.cellsOfLine (Bytes.lastPiece Bytes.lineFeed a) + d.cellsOfLine line ≤ n := by
  obtain ⟨front, piece, pieces, hfront, hpieces, hboth⟩ := splitOn_append_pieces a line
  rw [Bytes.splitOn_of_not_mem hfeed] at hpieces
  obtain ⟨rfl, rfl⟩ := List.cons.inj hpieces
  rw [cellsOf_le_iff, cellsOf_le_iff, hfront, hboth]
  simp only [List.forall_mem_append, List.forall_mem_singleton, ha.lastPiece line]
  constructor
  · rintro ⟨hothers, hlast⟩
    exact ⟨⟨hothers, by omega⟩, hlast⟩
  · rintro ⟨⟨hothers, -⟩, hlast⟩
    exact ⟨hothers, hlast⟩

theorem cellsOf_append_le (b : Bytes) : d.cellsOf (a ++ b) ≤ d.cellsOf a + d.cellsOf b := by
  obtain ⟨front, piece, pieces, hfront, hpieces, hboth⟩ := splitOn_append_pieces a b
  have hlinesA := cellsOf_le_iff.mp (Nat.le_refl (d.cellsOf a))
  have hlinesB := cellsOf_le_iff.mp (Nat.le_refl (d.cellsOf b))
  rw [hfront, List.forall_mem_append, List.forall_mem_singleton] at hlinesA
  rw [hpieces, List.forall_mem_cons] at hlinesB
  rw [cellsOf_le_iff, hboth, List.forall_mem_append, List.forall_mem_cons, ha.lastPiece piece]
  exact ⟨fun line hline => Nat.le_add_right_of_le (hlinesA.1 line hline),
    Nat.add_le_add hlinesA.2 hlinesB.1,
    fun line hline => Nat.le_add_left_of_le (hlinesB.2 line hline)⟩

end AllMeasured

end Display

end Scribe
