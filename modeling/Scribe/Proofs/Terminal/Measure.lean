import Scribe.Proofs.Terminal.Display
import Scribe.Proofs.Text.Cut
import Scribe.Proofs.Text.Quoted

/-!
# The width of styled text

What is styled ends with a control sequence, so nothing that stands behind it joins its last cluster
or is taken into a sequence it has opened. A terminal that is told about styles in this way is
therefore a display on which the widths of styled parts of a line add up.
-/

namespace Scribe

def escapeByte : UInt8 := 0x1B

/-! ## Characters in front of a control sequence -/

theorem utf8Char_cases (c : Char) :
    (∃ b, b < 0x80 ∧ utf8Char c = [b] ∧ c.toNat = b.toNat) ∨
      ∃ b tail, utf8Char c = b :: tail ∧ ControlMode.isLead b = true ∧ 0x80 ≤ c.toNat := by
  have hvalid : c.toNat < 0xD800 ∨ 0xDFFF < c.toNat ∧ c.toNat < 0x110000 := c.valid
  have hlead : ∀ n, 0xC2 ≤ n → n ≤ 0xF4 → ControlMode.isLead (UInt8.ofNat n) = true := by
    intro n hlow hhigh
    have hn := UInt8.toNat_ofNat_of_lt' (show n < 256 by omega)
    simp only [ControlMode.isLead, Bool.and_eq_true, decide_eq_true_eq, UInt8.le_iff_toNat_le, hn]
    exact ⟨hlow, hhigh⟩
  have hspelling : utf8Char c = String.utf8EncodeChar c := rfl
  unfold String.utf8EncodeChar at hspelling
  simp only [Char.toNat_val] at hspelling
  generalize hv : c.toNat = v at hvalid hspelling ⊢
  split at hspelling
  · have hb := UInt8.toNat_ofNat_of_lt' (show v < 256 by omega)
    exact .inl ⟨_, UInt8.lt_iff_toNat_lt.mpr (hb.trans_lt (show v < 0x80 by omega)), hspelling,
      hb.symm⟩
  · right
    split at hspelling
    · exact ⟨_, _, hspelling, hlead _ (by omega) (by omega), by omega⟩
    · split at hspelling
      · exact ⟨_, _, hspelling, hlead _ (by omega) (by omega), by omega⟩
      · exact ⟨_, _, hspelling, hlead _ (by omega) (by omega), by omega⟩

section Lead

variable {c : Char} {b : UInt8} {tail : Bytes} (hspelling : utf8Char c = b :: tail) (more : Bytes)
include hspelling

theorem Glyph.first_char : Glyph.first b (tail ++ more) = ⟨some c, tail.length + 1⟩ := by
  obtain ⟨b', tail', hsame, hfirst⟩ := Rune.first_utf8Char c more
  rw [hspelling] at hsame
  obtain ⟨rfl, rfl⟩ := List.cons.inj hsame
  have hwell : (Rune.ofChar c).isMalformed = false := Quoted.isMalformed_ofChar c
  simp only [Glyph.first, hfirst, hwell, Bool.false_eq_true, if_false]
  simp [Rune.ofChar, hspelling]

/-- A character in front of a control sequence is a cluster of its own. -/
theorem clusterLength_char : clusterLength b (tail ++ escapeByte :: more) = tail.length + 1 := by
  have hskip : ∀ (j : Junction) (text rest : Bytes),
      clusterTail j text.length (text ++ rest) = clusterTail j 0 rest + text.length := by
    intro j text rest
    induction text with
    | nil => rfl
    | cons d text ih =>
        rw [List.length_cons, List.cons_append, clusterTail, ih]
        rfl
  have hcontrol : (Glyph.first escapeByte more).binding = .control := by
    have hescape : Rune.first escapeByte more = (Rune.ascii escapeByte, more) :=
      Rune.first_ascii (by decide) more
    have hwell : (Rune.ascii escapeByte).isMalformed = false := by decide
    simp only [Glyph.first, hescape, hwell, Bool.false_eq_true, if_false]
    decide
  have hnone : ∀ j : Junction, j.admits .control = false := by
    intro j
    unfold Junction.admits
    cases j.last <;> rfl
  rw [clusterLength, Glyph.first_char hspelling]
  simp only [Nat.add_sub_cancel, hskip, clusterTail, hcontrol, hnone]
  simp

theorem cellsOfCluster_char :
    cellsOfCluster b (tail ++ escapeByte :: more) = cellsOfChar c := by
  have hplain : Bytes.startsWith (escapeByte :: more) wideForm = false := rfl
  rw [cellsOfCluster, Glyph.first_char hspelling]
  simp [hplain]

end Lead

/-! ## Parts of a line -/

section Cells

variable (done : Nat) (more : Bytes)

theorem cellsFrom_pending (mode : ControlMode) (text : Bytes) :
    cellsFrom done mode text.length (text ++ more) = cellsFrom done mode 0 more := by
  induction text with
  | nil => rfl
  | cons b text ih => exact ih

theorem cellsFrom_enters {mode mode' : ControlMode} {b : UInt8} (h : mode.read b = .enters mode') :
    cellsFrom done mode 0 (b :: more) = cellsFrom done mode' 0 more := by
  rw [cellsFrom, h]

/-- A byte of ASCII outside of sequences counts if it is printed. In front of a control sequence it
leaves nothing behind, an escape included. -/
theorem cellsFrom_ascii {b : UInt8} (hb : b < 0x80) :
    cellsFrom done .ground 0 (b :: escapeByte :: more) =
      cellsFrom (done + if 0x20 ≤ b.toNat && b.toNat < 0x7F then 1 else 0) .ground 0
        (escapeByte :: more) := by
  have hsmall : ¬ 0x80 ≤ b := UInt8.not_le.mpr hb
  by_cases hescape : b = 0x1B
  · subst hescape
    rfl
  · have hprinted : (0x20 ≤ b.toNat && b.toNat < 0x7F) = !ControlMode.isPassing b := by
      rw [Bool.eq_iff_iff]
      have hlast : b = 0x7F ↔ b.toNat = 0x7F := UInt8.toNat_inj.symm
      have hbound : b.toNat < 0x80 := UInt8.lt_iff_toNat_lt.mp hb
      simp only [ControlMode.isPassing, Bool.and_eq_true, decide_eq_true_eq, Bool.not_eq_true',
        Bool.or_eq_false_iff, decide_eq_false_iff_not, UInt8.lt_iff_toNat_lt, hlast,
        UInt8.reduceToNat]
      omega
    have hcancel : ControlMode.isCancel b = true → ControlMode.isPassing b = true := by
      simp only [ControlMode.isCancel, Bool.or_eq_true, decide_eq_true_eq]
      rintro (rfl | rfl) <;> rfl
    rw [hprinted]
    cases hpassing : ControlMode.isPassing b with
    | true =>
        have hread : ControlMode.ground.read b = .enters .ground := by
          simp [ControlMode.read, hescape, hsmall, hpassing, ControlMode.low]
        exact cellsFrom_enters done _ hread
    | false =>
        have hread : ControlMode.ground.read b = .printed := by
          have hgoes : ControlMode.isCancel b = false := by
            by_contra hstops
            rw [hcancel (Bool.not_eq_false _ ▸ hstops)] at hpassing
            cases hpassing
          simp [ControlMode.read, hgoes, hescape, hsmall, hpassing]
        rw [cellsFrom, hread]
        rfl

/-- A character in front of a control sequence takes its own cells. -/
theorem cellsFrom_char (c : Char) :
    cellsFrom done .ground 0 (utf8Char c ++ escapeByte :: more) =
      cellsFrom (done + cellsOfChar c) .ground 0 (escapeByte :: more) := by
  rcases utf8Char_cases c with ⟨b, hb, hspelling, hc⟩ | ⟨b, tail, hspelling, hlead, hc⟩
  · have hsmall : c.toNat < 0x80 := by
      rw [hc]
      exact UInt8.lt_iff_toNat_lt.mp hb
    rw [hspelling, List.singleton_append, cellsFrom_ascii done more hb, cellsOfChar,
      if_pos hsmall, hc]
  · have hread : ControlMode.ground.read b = .lead := by
      have hbounds := hlead
      simp only [ControlMode.isLead, Bool.and_eq_true, decide_eq_true_eq,
        UInt8.le_iff_toNat_le] at hbounds
      have hne : ∀ d : UInt8, d.toNat < 0xC2 → b ≠ d := by
        rintro d hd rfl
        exact absurd hbounds.1 (Nat.not_le.mpr hd)
      have hhigh : 0x80 ≤ b := UInt8.le_iff_toNat_le.mpr (Nat.le_trans (by decide) hbounds.1)
      simp [ControlMode.read, ControlMode.isCancel, ControlMode.high, hne 0x18 (by decide),
        hne 0x1A (by decide), hne 0x1B (by decide), hhigh, hlead]
    rw [hspelling, List.cons_append, cellsFrom, hread]
    simp only [cellsOfCluster_char hspelling, clusterLength_char hspelling, Nat.add_sub_cancel]
    exact cellsFrom_pending _ _ _ tail

end Cells

theorem cellsFrom_eq (done : Nat) (mode : ControlMode) (pending : Nat) (text : Bytes) :
    cellsFrom done mode pending text = done + cellsFrom 0 mode pending text := by
  induction text generalizing done mode pending with
  | nil => cases pending <;> rfl
  | cons b text ih =>
      cases pending with
      | succ pending => exact ih done mode pending
      | zero =>
          rw [cellsFrom, cellsFrom]
          cases mode.read b with
          | printed =>
              dsimp only
              rw [ih (done + 1), ih (0 + 1)]
              omega
          | lead =>
              dsimp only
              rw [ih (done + _), ih (0 + _)]
              omega
          | enters mode' => exact ih done mode' 0

open Display (ansi)

/-- What is taken cell by cell is measured. -/
theorem measured_of_cells {part : Bytes} (n : Nat)
    (h : ∀ more, cellsFrom 0 .ground 0 (part ++ more) = cellsFrom n .ground 0 more) :
    ansi.Measured part := by
  have hpart : cellsOfLine part = n := by
    have hall := h []
    rw [List.append_nil] at hall
    exact hall
  intro more
  change cellsOfLine (part ++ more) = cellsOfLine part + cellsOfLine more
  rw [hpart, cellsOfLine, h, cellsFrom_eq]
  rfl

/-! ## Styled lines -/

/-- A style that is told to the terminal by a control sequence. -/
structure Style.Sequenced (s : Style) : Prop where
  some : s.codes.isEmpty = false
  parameters : ∀ b ∈ utf8 (String.intercalate ";" s.codes), ControlMode.isParameter b = true

theorem Style.Sequenced.of_all {s : Style} (hsome : s.codes.isEmpty = false)
    (h : (utf8 (String.intercalate ";" s.codes)).all ControlMode.isParameter = true) :
    s.Sequenced := ⟨hsome, List.all_eq_true.mp h⟩

theorem ControlMode.read_parameter {b : UInt8} (h : isParameter b = true) :
    parameters.read b = .enters .parameters := by
  have hbounds := h
  simp only [isParameter, Bool.and_eq_true, decide_eq_true_eq, UInt8.le_iff_toNat_le] at hbounds
  have hne : ∀ d : UInt8, d.toNat < 0x30 → b ≠ d := by
    rintro d hd rfl
    exact absurd hbounds.1 (Nat.not_le.mpr hd)
  have hsmall : ¬ 0x80 ≤ b := by
    rw [UInt8.le_iff_toNat_le]
    exact fun hlarge => absurd (Nat.le_trans hlarge hbounds.2) (by decide)
  simp [read, isCancel, low, hne 0x18 (by decide), hne 0x1A (by decide), hne 0x1B (by decide),
    hsmall, h]

theorem cellsFrom_sequence (done : Nat) {parameters : Bytes}
    (h : ∀ b ∈ parameters, ControlMode.isParameter b = true) (more : Bytes) :
    cellsFrom done .ground 0 (utf8 "\x1b[" ++ parameters ++ utf8 "m" ++ more) =
      cellsFrom done .ground 0 more := by
  have hparameters : cellsFrom done .parameters 0 (parameters ++ (utf8 "m" ++ more)) =
      cellsFrom done .ground 0 more := by
    induction parameters with
    | nil => rfl
    | cons b parameters ih =>
        obtain ⟨hb, hothers⟩ := List.forall_mem_cons.mp h
        have hread := ControlMode.read_parameter hb
        rw [List.cons_append, cellsFrom_enters done _ hread]
        exact ih hothers
  rw [List.append_assoc, List.append_assoc]
  exact hparameters

namespace Style

/-- Wrapped text is measured, if it is so in front of the sequence that ends the style. -/
theorem Sequenced.measured_wrap {s : Style} (hs : s.Sequenced) {inner : Bytes} {n : Nat}
    (h : ∀ more, cellsFrom 0 .ground 0 (inner ++ escapeByte :: more) =
      cellsFrom n .ground 0 (escapeByte :: more)) : ansi.Measured (wrap s.codes inner) := by
  refine measured_of_cells n fun more => ?_
  rw [Style.wrap, List.append_assoc, List.append_assoc, cellsFrom_sequence 0 hs.parameters]
  exact h _

theorem expandTabs_of_not_mem {text : Bytes} (h : 0x09 ∉ text) : expandTabs text = text := by
  induction text with
  | nil => rfl
  | cons b text ih =>
      obtain ⟨hb, hothers⟩ := not_or.mp (List.mem_cons.not.mp h)
      rw [expandTabs, List.flatMap_cons, if_neg (Ne.symm hb), ← expandTabs, ih hothers]
      rfl

theorem joinLineEnds_of_not_mem {text : Bytes} (h : Bytes.lineFeed ∉ text) :
    joinLineEnds text = text := by
  fun_induction joinLineEnds text with
  | case1 rest ih => exact absurd (by simp [Bytes.lineFeed]) h
  | case2 b rest _ ih => rw [ih (List.not_mem_of_not_mem_cons h)]
  | case3 => rfl

/-- A text of one line without tabs is wrapped as it is. -/
theorem Sequenced.render_eq {s : Style} (hs : s.Sequenced) {text : Bytes} (htab : 0x09 ∉ text)
    (hfeed : Bytes.lineFeed ∉ text) : s.render text = Style.wrap s.codes text := by
  rw [render, expandTabs_of_not_mem htab, hs.some, joinLineEnds_of_not_mem hfeed,
    Bytes.splitOn_of_not_mem hfeed]
  simp [Bytes.join]

theorem Sequenced.lineFeed_not_mem_wrap {s : Style} (hs : s.Sequenced) {inner : Bytes}
    (h : Bytes.lineFeed ∉ inner) : Bytes.lineFeed ∉ Style.wrap s.codes inner := by
  simp only [Style.wrap, List.mem_append, not_or]
  refine ⟨⟨⟨⟨by decide, fun hmem => ?_⟩, by decide⟩, h⟩, by decide⟩
  exact absurd (hs.parameters _ hmem) (by decide)

end Style

/-! ## Styled characters -/

/-- The lines of a styled character are measured, whatever character it is: a tab is shown as
spaces, and a line feed ends a styled line and starts another. -/
theorem Style.Sequenced.allMeasured {s : Style} (hs : s.Sequenced) (c : Char) :
    ansi.AllMeasured (s.render (utf8Char c)) := by
  have hempty : ansi.Measured (wrap s.codes []) := hs.measured_wrap (n := 0) fun _ => rfl
  by_cases htab : c = '\t'
  · subst htab
    have hspaces : s.render (utf8Char '\t') = s.render (Bytes.spaces 4) := rfl
    rw [hspaces, hs.render_eq (by decide) (by decide)]
    have hmeasured : ansi.Measured (wrap s.codes (Bytes.spaces 4)) :=
      hs.measured_wrap (n := 4) fun _ => rfl
    exact Display.allMeasured_of_line (hs.lineFeed_not_mem_wrap (by decide)) hmeasured
  by_cases hfeed : c = '\n'
  · subst hfeed
    have hlines : s.render (utf8Char '\n') =
        wrap s.codes [] ++ Bytes.lineFeed :: wrap s.codes [] := by
      have hshown : joinLineEnds (expandTabs (utf8Char '\n')) = [] ++ Bytes.lineFeed :: [] := by
        decide
      rw [render, hs.some, hshown, Bytes.splitOn_append List.not_mem_nil,
        Bytes.splitOn_of_not_mem List.not_mem_nil]
      simp [Bytes.join, cellsOfLine, cellsFrom, Bytes.spaces]
    have hempties := hs.lineFeed_not_mem_wrap List.not_mem_nil
    rw [hlines, Display.AllMeasured, Bytes.splitOn_append hempties,
      Bytes.splitOn_of_not_mem hempties]
    simpa using hempty
  have hnotab : 0x09 ∉ utf8Char c := fun hmem => htab (Bytes.char_of_mem_utf8Char hmem (by decide))
  have hnofeed : Bytes.lineFeed ∉ utf8Char c :=
    fun hmem => hfeed (Bytes.char_of_mem_utf8Char hmem (by decide))
  rw [hs.render_eq hnotab hnofeed]
  have hmeasured : ansi.Measured (wrap s.codes (utf8Char c)) :=
    hs.measured_wrap (n := cellsOfChar c) fun more => by rw [cellsFrom_char, Nat.zero_add]
  exact Display.allMeasured_of_line (hs.lineFeed_not_mem_wrap hnofeed) hmeasured

theorem Style.sequenced_candidate (isSelected isHit : Bool) :
    (candidate isSelected isHit).Sequenced := by
  cases isSelected <;> cases isHit <;> exact .of_all rfl rfl

theorem Style.sequenced_hint : hint.Sequenced := .of_all rfl rfl

theorem ansi_lawful : ansi.Lawful where
  cellsOfLine_nil := rfl
  cellsOfLine_space more := cellsFrom_eq 1 .ground 0 more
  dots := by
    have hrender : ansi.render .hint (utf8 "...") = Style.wrap Style.hint.codes (utf8 "...") :=
      Style.sequenced_hint.render_eq (by decide) (by decide)
    rw [hrender]
    exact ⟨Style.sequenced_hint.lineFeed_not_mem_wrap (by decide), rfl⟩
  character isSelected isHit c := (Style.sequenced_candidate isSelected isHit).allMeasured c

end Scribe
