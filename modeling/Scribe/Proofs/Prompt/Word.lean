import Scribe.Prompt.Word
import Scribe.Proofs.Text.Backward
import Scribe.Proofs.Text.Border

/-!
# The word at a place

The word is what is walked over from a place in both directions, back from rune to rune as they are
found from the end of a text, and on as they are read from its front, up to the first boundary. At a
border between two runes this is the one part of the text around the place that holds no boundary
and has one, or an end of the text, on each side. That is so for texts of any bytes.
-/

namespace Scribe

namespace Word

open Bytes (ofRunes)

variable {text : Bytes} {place : Nat} {s t : Span}

/-- A part of a text around a place that holds no boundary and cannot be made longer. -/
structure Span.IsWordAt (s : Span) (text : Bytes) (place : Nat) : Prop where
  start_le : s.start ≤ place
  le_finish : place ≤ s.finish
  finish_le : s.finish ≤ text.length
  inner : ∃ word, s.slice? text = some word ∧ ∀ r ∈ word.runes, isBoundary r.char = false
  starts : s.start = 0 ∨
    ∃ i r, text.RuneAt i r ∧ isBoundary r.char = true ∧ i + r.bytes.length = s.start
  finishes : s.finish = text.length ∨ ∃ r, text.RuneAt s.finish r ∧ isBoundary r.char = true

theorem Span.slice?_between (before word after : Bytes) :
    Span.slice? ⟨before.length, (before ++ word).length⟩ (before ++ (word ++ after)) =
      some word := by
  rw [slice?, if_pos, ← List.append_assoc, List.take_left, List.drop_left]
  simp

/-! ## What is walked over -/

/-- What is left in front of a word at the end of a text. The bytes are given last first. -/
def walkBack : Bytes → Bytes
  | [] => []
  | b :: back =>
      if isBoundary (Rune.last b back).1.char then b :: back
      else walkBack (Rune.last b back).2
termination_by back => back.length
decreasing_by exact Rune.last_rest_length b back

/-- What is left behind a word at the front of a text. -/
def walkOn : Bytes → Bytes
  | [] => []
  | b :: rest =>
      if isBoundary (Rune.first b rest).1.char then b :: rest
      else walkOn (Rune.first b rest).2
termination_by rest => rest.length
decreasing_by exact Rune.first_rest_length b rest

theorem walkOn_length (rest : Bytes) :
    (leading rest.runes).length + (walkOn rest).length = rest.length := by
  fun_induction walkOn rest with
  | case1 => simp [leading]
  | case2 b rest h =>
      rw [Bytes.runes_cons, leading, List.takeWhile_cons_of_neg (by simp [h])]
      simp
  | case3 b rest h ih =>
      have hspelling := congrArg List.length (Rune.first_spelling b rest)
      rw [List.length_append] at hspelling
      rw [leading] at ih
      rw [Bytes.runes_cons, leading, List.takeWhile_cons_of_pos (by simp [h]), Bytes.ofRunes_cons,
        List.length_append]
      omega

theorem walkBack_length (back : Bytes) :
    (trailing (Bytes.runes back.reverse)).length + (walkBack back).length = back.length := by
  fun_induction walkBack back with
  | case1 => simp [trailing]
  | case2 b back h =>
      rw [Bytes.runes_reverse_cons, trailing, List.reverse_concat,
        List.takeWhile_cons_of_neg (by simp [h])]
      simp
  | case3 b back h ih =>
      have hspelling := congrArg (fun rs => (ofRunes rs).length) (Bytes.runes_reverse_cons b back)
      simp only [Bytes.ofRunes_runes, Bytes.ofRunes_append, List.length_append,
        List.length_reverse] at hspelling
      rw [trailing] at ih
      rw [Bytes.runes_reverse_cons, trailing, List.reverse_concat,
        List.takeWhile_cons_of_pos (by simp [h]), List.reverse_cons, Bytes.ofRunes_append,
        List.length_append]
      omega

/-- The word at a place is what is walked over from there in both directions. -/
theorem around_eq_walked (text : Bytes) (cursor : Int) :
    around text cursor =
      ⟨(walkBack (text.take (clamp text cursor)).reverse).length,
        text.length - (walkOn (text.drop (clamp text cursor))).length⟩ := by
  have hplace : clamp text cursor ≤ text.length := Nat.min_le_right ..
  have hback := walkBack_length (text.take (clamp text cursor)).reverse
  have hon := walkOn_length (text.drop (clamp text cursor))
  rw [List.reverse_reverse, List.length_reverse, List.length_take_of_le hplace] at hback
  rw [List.length_drop] at hon
  simp only [around, Span.mk.injEq]
  omega

/-! ## The longest part without a boundary -/

section Parts

variable {rs : List Rune} {r : Rune}

theorem boundary_of_getLast? (h : r ∈ (rs.rdropWhile (!isBoundary ·.char)).getLast?) :
    isBoundary r.char = true := by
  have hne := List.ne_nil_of_mem (List.mem_of_getLast? h)
  have hlast := List.rdropWhile_last_not (fun r : Rune => !isBoundary r.char) rs hne
  rw [Option.mem_def, List.getLast?_eq_some_getLast hne, Option.some.injEq] at h
  simpa [h] using hlast

theorem boundary_of_head? (h : r ∈ (rs.dropWhile (!isBoundary ·.char)).head?) :
    isBoundary r.char = true := by
  have hfirst := List.head?_dropWhile_not (fun r : Rune => !isBoundary r.char) rs
  rw [Option.mem_def] at h
  simpa [h] using hfirst

theorem not_boundary_of_mem_takeWhile (h : r ∈ rs.takeWhile (!isBoundary ·.char)) :
    isBoundary r.char = false := by
  have hinner := List.mem_takeWhile_imp (p := fun r : Rune => !isBoundary r.char) h
  simpa using hinner

end Parts

/-- At a border a text falls into what stands in front of the word, the word and what stands behind
it. -/
theorem around_parts {cursor : Int} (h : text.IsBorder (clamp text cursor)) :
    ∃ before word after : Bytes, text = before ++ (word ++ after) ∧
      text.runes = before.runes ++ (word.runes ++ after.runes) ∧
      around text cursor = ⟨before.length, (before ++ word).length⟩ ∧
      (∀ r ∈ before.runes.getLast?, isBoundary r.char = true) ∧
      (∀ r ∈ word.runes, isBoundary r.char = false) ∧
      ∀ r ∈ after.runes.head?, isBoundary r.char = true := by
  let inner : Rune → Bool := (!isBoundary ·.char)
  obtain ⟨rs, ss, hrunes, hplace⟩ := h
  obtain ⟨front, back, htext, hfront, hback⟩ := Bytes.runes_eq_append hrunes
  have hleft : rs.rdropWhile inner ++ rs.rtakeWhile inner = rs :=
    List.rdropWhile_append_rtakeWhile
  have hright : ss.takeWhile inner ++ ss.dropWhile inner = ss := List.takeWhile_append_dropWhile
  have hparts : text.runes = rs.rdropWhile inner ++
      (rs.rtakeWhile inner ++ ss.takeWhile inner ++ ss.dropWhile inner) := by
    rw [List.append_assoc, hright, ← List.append_assoc, hleft, hrunes]
  obtain ⟨before, rest, hbytes, hbefore, hrest⟩ := Bytes.runes_eq_append hparts
  obtain ⟨word, after, rfl, hword, hafter⟩ := Bytes.runes_eq_append hrest
  have hstart : (trailing rs).length + before.length = (ofRunes rs).length := by
    conv_rhs => rw [← hleft]
    rw [Bytes.ofRunes_append, List.length_append, ← hbefore, Bytes.ofRunes_runes, Nat.add_comm]
    rfl
  have hfinish : (trailing rs).length + (leading ss).length = word.length := by
    rw [← Bytes.ofRunes_runes word, hword, Bytes.ofRunes_append, List.length_append]
    rfl
  have hsplit : clamp text cursor = front.length := by
    rw [← hplace, ← hfront, Bytes.ofRunes_runes]
  have haround : around text cursor = ⟨before.length, (before ++ word).length⟩ := by
    rw [around, hsplit, htext, List.take_left, List.drop_left, hfront, hback, ← hsplit, ← hplace,
      List.length_append, Span.mk.injEq]
    omega
  have hinner : ∀ r ∈ word.runes, isBoundary r.char = false := by
    rw [hword]
    intro r hr
    rcases List.mem_append.mp hr with hr | hr
    · exact not_boundary_of_mem_takeWhile (List.mem_reverse.mp hr)
    · exact not_boundary_of_mem_takeWhile hr
  exact ⟨before, word, after, hbytes, by rw [hparts, hbefore, hword, hafter], haround,
    fun r hr => boundary_of_getLast? (hbefore ▸ hr), hinner,
    fun r hr => boundary_of_head? (hafter ▸ hr)⟩

theorem around_isWordAt {cursor : Int} (h : text.IsBorder (clamp text cursor)) :
    (around text cursor).IsWordAt text (clamp text cursor) := by
  obtain ⟨before, word, after, htext, hrunes, haround, hbefore, hword, hafter⟩ := around_parts h
  have hplace : clamp text cursor ≤ text.length := Nat.min_le_right ..
  have hends : (around text cursor).start ≤ clamp text cursor ∧
      clamp text cursor ≤ (around text cursor).finish := by
    simp [around]
  rw [haround] at hends ⊢
  refine ⟨hends.1, hends.2, ?_, ⟨word, ?_, hword⟩, ?_, ?_⟩
  · simp [htext]
  · rw [htext]
    exact Span.slice?_between before word after
  · rcases List.eq_nil_or_concat' before.runes with hnil | ⟨front, r, hlast⟩
    · left
      rw [← Bytes.ofRunes_runes before, hnil]
      rfl
    · right
      refine ⟨(ofRunes front).length, r, ⟨front, word.runes ++ after.runes, ?_, rfl⟩,
        hbefore r (by rw [hlast]; simp), ?_⟩
      · rw [hrunes, hlast]
        simp
      · conv_rhs => rw [← Bytes.ofRunes_runes before, hlast]
        simp
  · cases hnext : after.runes with
    | nil =>
        left
        rw [htext, ← Bytes.ofRunes_runes after, hnext]
        simp
    | cons r more =>
        right
        refine ⟨r, ⟨before.runes ++ word.runes, more, ?_, ?_⟩, hafter r (by rw [hnext]; rfl)⟩
        · rw [hrunes, hnext, List.append_assoc]
        · rw [Bytes.ofRunes_append, Bytes.ofRunes_runes, Bytes.ofRunes_runes]

theorem Span.IsWordAt.isBorder_start (h : s.IsWordAt text place) : text.IsBorder s.start := by
  rcases h.starts with hzero | ⟨i, r, hr, -, hstart⟩
  · rw [hzero]
    exact Bytes.isBorder_zero text
  · rw [← hstart]
    exact hr.isBorder_behind

theorem Span.IsWordAt.isBorder_finish (h : s.IsWordAt text place) : text.IsBorder s.finish := by
  rcases h.finishes with hend | ⟨r, hr, -⟩
  · rw [hend]
    exact Bytes.isBorder_length text
  · exact hr.isBorder

theorem Span.IsWordAt.not_boundary (h : s.IsWordAt text place) {i : Nat} {r : Rune}
    (hr : text.RuneAt i r) (hstart : s.start ≤ i)
    (hfinish : i + r.bytes.length ≤ s.finish) : isBoundary r.char = false := by
  obtain ⟨word, hslice, hword⟩ := h.inner
  obtain ⟨front, inside, back, rfl, hfront, hback, hrunes⟩ :=
    h.isBorder_start.between h.isBorder_finish (h.start_le.trans h.le_finish)
  obtain rfl : inside = word := by
    have hsame := Span.slice?_between front inside back
    rw [hfront, hback] at hsame
    exact Option.some.inj (hsame.symm.trans hslice)
  apply hword
  obtain ⟨rs, ss, hparts, rfl⟩ := hr
  have hpos := Bytes.length_bytes_pos (show r ∈ (front ++ (inside ++ back)).runes by simp [hparts])
  rcases Bytes.cut_cases (hrunes.symm.trans hparts) with ⟨more, rfl, hrest⟩ | ⟨more, hmore, -⟩
  · rcases Bytes.cut_cases hrest with ⟨more, rfl, -⟩ | ⟨more, hmore, -⟩
    · simp only [Bytes.ofRunes_append, Bytes.ofRunes_runes, List.length_append] at hfinish hback
      omega
    · rw [hmore]
      simp
  · have hlength := congrArg (fun rs => (ofRunes rs).length) hmore
    simp only [Bytes.ofRunes_append, Bytes.ofRunes_cons, Bytes.ofRunes_runes,
      List.length_append] at hlength
    omega

theorem Span.IsWordAt.start_le_start (hs : s.IsWordAt text place) (ht : t.IsWordAt text place) :
    t.start ≤ s.start := by
  rcases ht.starts with hzero | ⟨i, r, hr, hboundary, hstart⟩
  · omega
  · rcases hr.border_cases hs.isBorder_start with hle | hle
    · have hinner := hs.not_boundary hr hle (by have := ht.start_le; have := hs.le_finish; omega)
      rw [hinner] at hboundary
      cases hboundary
    · omega

theorem Span.IsWordAt.finish_le_finish (hs : s.IsWordAt text place)
    (ht : t.IsWordAt text place) : s.finish ≤ t.finish := by
  rcases ht.finishes with hend | ⟨r, hr, hboundary⟩
  · rw [hend]
    exact hs.finish_le
  · rcases hr.border_cases hs.isBorder_finish with hle | hle
    · exact hle
    · have hinner := hs.not_boundary hr (hs.start_le.trans ht.le_finish) hle
      rw [hinner] at hboundary
      cases hboundary

theorem Span.IsWordAt.unique (hs : s.IsWordAt text place) (ht : t.IsWordAt text place) :
    s = t := by
  have hstart := Nat.le_antisymm (ht.start_le_start hs) (hs.start_le_start ht)
  have hfinish := Nat.le_antisymm (hs.finish_le_finish ht) (ht.finish_le_finish hs)
  cases s
  cases t
  simp_all

/-- At a border between two runes, whatever the bytes of the text, the word around it is the one
part of the text that holds no boundary and cannot be made longer. -/
theorem around_maximal {cursor : Int} (h : text.IsBorder (clamp text cursor)) :
    (around text cursor).IsWordAt text (clamp text cursor) ∧
      ∀ s : Span, s.IsWordAt text (clamp text cursor) → s = around text cursor :=
  ⟨around_isWordAt h, fun _ hs => hs.unique (around_isWordAt h)⟩

/-- A word of two-byte characters between a sign and an ideographic space. -/
theorem umlauts_around :
    let text := utf8 "ä=größe\u3000x"
    text.IsBorder (clamp text 7) ∧ Span.IsWordAt ⟨3, 10⟩ text 7 ∧
      Span.slice? ⟨3, 10⟩ text = some (utf8 "größe") ∧
      ∀ s : Span, s.IsWordAt text 7 → s = ⟨3, 10⟩ := by
  intro text
  have hborder : text.IsBorder (clamp text 7) :=
    ⟨text.runes.take 5, text.runes.drop 5, (List.take_append_drop 5 _).symm, by cbv⟩
  have hword : around text 7 = ⟨3, 10⟩ := by cbv
  have hplace : clamp text 7 = 7 := by cbv
  obtain ⟨hlongest, honly⟩ := around_maximal hborder
  rw [hword, hplace] at hlongest honly
  exact ⟨hborder, hlongest, by cbv, honly⟩

end Word

end Scribe
