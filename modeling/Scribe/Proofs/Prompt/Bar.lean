import Scribe.Prompt.Completion
import Scribe.Proofs.Terminal.Measure

/-!
# The candidate bar

Behind the first candidate, the bar shows candidates as long as there is room for them and for an
ellipsis. The ellipsis stands behind a separator, for which no room is kept: a bar that is cut may
be two columns too wide, and never more.
-/

namespace Scribe

namespace Completion

section

variable (d : Display) (selected : Option Nat) (width : Int)

/-- The candidates behind the first for which there is room. -/
def fitting (used index : Nat) : List Fuzzy.Match → List Fuzzy.Match
  | [] => []
  | m :: rest =>
      let cells := d.cellsOf (rendered d m (selected = some index)) + d.cellsOf separator
      if width < used + cells + d.cellsOf (ellipsis d) then []
      else m :: fitting (used + cells) (index + 1) rest

def shown : List Fuzzy.Match → List Fuzzy.Match
  | [] => []
  | m :: rest =>
      m :: fitting d selected width (d.cellsOf (rendered d m (selected = some 0))) 1 rest

/-- Candidates behind the first, all of them. -/
def entries (index : Nat) : List Fuzzy.Match → Bytes
  | [] => []
  | m :: rest => separator ++ rendered d m (selected = some index) ++ entries (index + 1) rest

def row : List Fuzzy.Match → Bytes
  | [] => []
  | m :: rest => rendered d m (selected = some 0) ++ entries d selected 1 rest

/-- What a bar ends with if it is cut. -/
def cutMark : Bytes := separator ++ ellipsis d

end

variable {d : Display} {selected : Option Nat} {width : Int}

/-! ## What a bar consists of -/

theorem barFrom_eq (used index : Nat) (found : List Fuzzy.Match) :
    barFrom d selected width used index found =
      entries d selected index (fitting d selected width used index found) ++
        if fitting d selected width used index found = found then [] else cutMark d := by
  induction found generalizing used index with
  | nil => rfl
  | cons m rest ih =>
      simp only [barFrom, fitting]
      split
      · rfl
      · rw [ih, entries]
        simp

theorem bar_eq (hwidth : 0 < width) (found : List Fuzzy.Match) :
    bar found selected width d = row d selected (shown d selected width found) ++
      if shown d selected width found = found then [] else cutMark d := by
  cases found with
  | nil => rfl
  | cons m rest =>
      simp only [bar, if_neg (Int.not_le.mpr hwidth), barFrom_eq, shown, row, List.cons.injEq,
        true_and, List.append_assoc]

section Columns

variable (hd : d.Lawful)
include hd

/-! ## Columns -/

/-- A candidate consists of styled characters. -/
theorem allMeasured_rendered (m : Fuzzy.Match) (isSelected : Bool) :
    d.AllMeasured (rendered d m isSelected) := by
  refine Display.allMeasured_flatten hd.cellsOfLine_nil fun part hpart => ?_
  refine List.foldlRecOn (motive := fun state : Nat × List Bytes => ∀ part ∈ state.2,
    d.AllMeasured part) _ _ (List.forall_mem_nil _) ?_ part (List.mem_reverse.mp hpart)
  intro state hstate r _
  exact List.forall_mem_cons.mpr ⟨hd.character isSelected _ r.char, hstate⟩

theorem cellsOfLine_separator_append (more : Bytes) :
    d.cellsOfLine (separator ++ more) = 2 + d.cellsOfLine more := by
  change d.cellsOfLine (Bytes.space :: Bytes.space :: more) = 2 + d.cellsOfLine more
  rw [hd.cellsOfLine_space, hd.cellsOfLine_space]
  omega

theorem cellsOfLine_separator : d.cellsOfLine separator = 2 := by
  have hline := cellsOfLine_separator_append hd []
  rwa [List.append_nil, hd.cellsOfLine_nil] at hline

theorem cellsOf_separator : d.cellsOf separator = 2 :=
  (Display.cellsOf_of_line (by decide)).trans (cellsOfLine_separator hd)

theorem allMeasured_separator : d.AllMeasured separator := by
  refine Display.allMeasured_of_line (by decide) fun more => ?_
  rw [cellsOfLine_separator_append hd, cellsOfLine_separator hd]

theorem cellsOf_ellipsis : d.cellsOf (ellipsis d) = 3 :=
  (Display.cellsOf_of_line hd.dots.1).trans hd.dots.2

theorem lineFeed_not_mem_cutMark : Bytes.lineFeed ∉ cutMark d := by
  rw [cutMark, List.mem_append, not_or]
  exact ⟨by decide, hd.dots.1⟩

theorem cellsOfLine_cutMark : d.cellsOfLine (cutMark d) = 5 := by
  rw [cutMark, cellsOfLine_separator_append hd, ellipsis, hd.dots.2]

theorem allMeasured_entries (index : Nat) (found : List Fuzzy.Match) :
    d.AllMeasured (entries d selected index found) := by
  induction found generalizing index with
  | nil => exact Display.allMeasured_nil hd.cellsOfLine_nil
  | cons m rest ih =>
      have hrendered := allMeasured_rendered hd m (selected = some index)
      exact ((allMeasured_separator hd).append hrendered).append (ih (index + 1))

theorem allMeasured_row (found : List Fuzzy.Match) : d.AllMeasured (row d selected found) := by
  cases found with
  | nil => exact Display.allMeasured_nil hd.cellsOfLine_nil
  | cons m rest => exact (allMeasured_rendered hd m _).append (allMeasured_entries hd 1 rest)

/-! ## Room -/

theorem cellsOf_entries_cons (index : Nat) (m : Fuzzy.Match) (rest : List Fuzzy.Match) :
    d.cellsOf (entries d selected index (m :: rest)) ≤
      d.cellsOf (rendered d m (selected = some index)) + 2 +
        d.cellsOf (entries d selected (index + 1) rest) := by
  have hseparator := allMeasured_separator hd
  have hentry := hseparator.cellsOf_append_le (rendered d m (selected = some index))
  have hentries := hseparator.append (allMeasured_rendered hd m (selected = some index))
  have hboth := hentries.cellsOf_append_le (entries d selected (index + 1) rest)
  rw [cellsOf_separator hd] at hentry
  rw [entries]
  omega

/-- Behind the candidates that fit, there is room for an ellipsis. -/
theorem room_entries (used index : Nat) {found : List Fuzzy.Match}
    (h : fitting d selected width used index found ≠ []) :
    used + d.cellsOf (entries d selected index (fitting d selected width used index found)) + 3 ≤
      width := by
  induction found generalizing used index with
  | nil => exact absurd rfl h
  | cons m rest ih =>
      simp only [fitting, cellsOf_ellipsis hd, cellsOf_separator hd] at h ⊢
      split at h
      · exact absurd rfl h
      · next hroom =>
          rw [if_neg hroom]
          generalize hcells : d.cellsOf (rendered d m (selected = some index)) + 2 = cells
            at hroom ⊢
          have hsum : d.cellsOf (entries d selected index (m :: _)) ≤ _ :=
            cellsOf_entries_cons hd index m
              (fitting d selected width (used + cells) (index + 1) rest)
          rw [hcells] at hsum
          by_cases hlast : fitting d selected width (used + cells) (index + 1) rest = []
          · have hnone : d.cellsOf (entries d selected (index + 1) []) = 0 :=
              (Display.cellsOf_of_line List.not_mem_nil).trans hd.cellsOfLine_nil
            rw [hlast] at hsum ⊢
            omega
          · have hothers := ih (used + cells) (index + 1) hlast
            omega

variable {m : Fuzzy.Match} {rest : List Fuzzy.Match}

/-- What a bar shows fits, and there is room for an ellipsis, but perhaps not behind the first
candidate alone. -/
theorem cellsOf_row (hfirst : d.cellsOf (rendered d m (selected = some 0)) ≤ width) :
    d.cellsOf (row d selected (shown d selected width (m :: rest))) ≤ width ∧
      (shown d selected width (m :: rest) = [m] ∨
        d.cellsOf (row d selected (shown d selected width (m :: rest))) + 3 ≤ width) := by
  have hsum := (allMeasured_rendered hd m (selected = some 0)).cellsOf_append_le
    (entries d selected 1
      (fitting d selected width (d.cellsOf (rendered d m (selected = some 0))) 1 rest))
  rw [shown, row]
  by_cases hone :
      fitting d selected width (d.cellsOf (rendered d m (selected = some 0))) 1 rest = []
  · rw [hone, entries, List.append_nil]
    exact ⟨hfirst, .inl rfl⟩
  · have hroom := room_entries hd _ _ hone
    omega

/-- If there is room for the first candidate and an ellipsis behind it, the bar is at most two
columns too wide. It fits unless it is cut where fewer than five columns are left. -/
theorem bar_fits_iff
    (hfirst : d.cellsOf (rendered d m (selected = some 0) ++ (separator ++ ellipsis d)) ≤ width) :
    d.cellsOf (bar (m :: rest) selected width d) ≤ width + 2 ∧
      (d.cellsOf (bar (m :: rest) selected width d) ≤ width ↔
        shown d selected width (m :: rest) = m :: rest ∨
          d.cellsOfLine (Bytes.lastPiece Bytes.lineFeed
            (row d selected (shown d selected width (m :: rest)))) + 5 ≤ width) := by
  obtain ⟨columns, rfl⟩ : ∃ columns : Nat, width = columns := Int.eq_ofNat_of_zero_le (by omega)
  have hrendered := allMeasured_rendered hd m (selected = some 0)
  have hmark := lineFeed_not_mem_cutMark hd
  obtain ⟨hshown, hmargin⟩ :=
    (hrendered.cellsOf_append_line_le_iff hmark).mp (Int.ofNat_le.mp hfirst)
  rw [cellsOfLine_cutMark hd] at hmargin
  obtain ⟨hrow, hroom⟩ := @cellsOf_row d selected columns hd m rest (Int.ofNat_le.mpr hshown)
  rw [bar_eq (by omega)]
  generalize hkept : shown d selected columns (m :: rest) = kept at hrow hroom ⊢
  by_cases hall : kept = m :: rest
  · rw [if_pos hall, List.append_nil]
    exact ⟨by omega, iff_of_true hrow (.inl hall)⟩
  · have hcut : ∀ n, d.cellsOf (row d selected kept ++ cutMark d) ≤ n ↔ _ := fun n =>
      (allMeasured_row hd kept).cellsOf_append_line_le_iff hmark
    rw [cellsOfLine_cutMark hd] at hcut
    have hlast := Display.cellsOf_lastPiece (d := d) (row d selected kept)
    rw [if_neg hall, or_iff_right hall]
    constructor
    · have hmore : d.cellsOfLine (Bytes.lastPiece Bytes.lineFeed (row d selected kept)) + 5 ≤
          columns + 2 := by
        rcases hroom with rfl | hroom
        · rw [row, entries, List.append_nil]
          omega
        · omega
      exact_mod_cast (hcut (columns + 2)).mpr ⟨by omega, hmore⟩
    · have hfits := hcut columns
      rw [and_iff_right (Int.ofNat_le.mp hrow)] at hfits
      exact_mod_cast hfits

end Columns

section Letters

open Display (ansi)

/-- The candidates for the word `a` among the names `a`, `A` and `ab`. -/
def letters : List Fuzzy.Match :=
  [⟨utf8 "A", 1, [0], 10⟩, ⟨utf8 "a", 0, [0], 10⟩, ⟨utf8 "ab", 2, [0], 9⟩]

/-- Two candidates and an ellipsis fit into nine columns. -/
theorem letters_fit :
    ansi.cellsOf (rendered ansi ⟨utf8 "A", 1, [0], 10⟩ false ++ (separator ++ ellipsis ansi)) ≤
        (9 : Int) ∧
      shown ansi none 9 letters = letters.take 2 ∧
        ansi.cellsOf (bar letters none 9) ≤ (9 : Int) := by
  have hfirst : ansi.cellsOf (rendered ansi ⟨utf8 "A", 1, [0], 10⟩ ((none : Option Nat) = some 0) ++
      (separator ++ ellipsis ansi)) ≤ (9 : Int) := by
    decide +kernel
  have hmargin : (ansi.cellsOfLine (Bytes.lastPiece Bytes.lineFeed
      (row ansi none (shown ansi none 9 letters))) : Int) + 5 ≤ 9 := by
    decide +kernel
  exact ⟨hfirst, by decide +kernel,
    (@bar_fits_iff ansi none 9 ansi_lawful _ letters.tail hfirst).2.mpr (.inr hmargin)⟩

/-- There is room for the first of them and an ellipsis in seven columns, but the bar takes nine. -/
theorem letters_overflow :
    Fuzzy.find (utf8 "a") [utf8 "a", utf8 "A", utf8 "ab"] = letters ∧
      ansi.cellsOf (rendered ansi ⟨utf8 "A", 1, [0], 10⟩ false ++
        (separator ++ ellipsis ansi)) = 6 ∧
      ansi.cellsOf (bar letters none 7) = 9 := by
  decide +kernel

end Letters

end Completion

end Scribe
