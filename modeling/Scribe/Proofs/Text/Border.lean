import Scribe.Proofs.Text.Runes

/-!
# Borders between runes

A place is a border of a text if runes of the text end there and others start. Between two borders
the text reads as it does within the whole, and no border lies within a rune.
-/

namespace Scribe

namespace Bytes

/-- A place between two runes of a text, or at one of its ends. -/
def IsBorder (text : Bytes) (place : Nat) : Prop :=
  ∃ before after, text.runes = before ++ after ∧ (ofRunes before).length = place

def RuneAt (text : Bytes) (place : Nat) (r : Rune) : Prop :=
  ∃ before after, text.runes = before ++ r :: after ∧ (ofRunes before).length = place

variable {text : Bytes} {place start stop : Nat} {r : Rune}

theorem length_bytes_pos (hr : r ∈ text.runes) : 0 < r.bytes.length := by
  obtain ⟨-, b, rest, -, rfl⟩ := exists_first_of_mem hr
  exact List.length_pos_iff.mpr (Rune.first_bytes_ne_nil b rest)

theorem cut_cases {rs ss before after : List Rune} (h : rs ++ ss = before ++ r :: after) :
    (∃ more, before = rs ++ more ∧ ss = more ++ r :: after) ∨
      ∃ more, rs = before ++ r :: more ∧ after = more ++ ss := by
  rcases List.append_eq_append_iff.mp h with ⟨more, hbefore, hss⟩ | ⟨more, hrs, hmore⟩
  · exact .inl ⟨more, hbefore, hss⟩
  · rcases List.append_eq_cons_iff.mp hmore.symm with ⟨rfl, hss⟩ | ⟨rest, rfl, hafter⟩
    · exact .inl ⟨[], by simpa using hrs.symm, by simpa using hss⟩
    · exact .inr ⟨rest, hrs, hafter⟩

theorem isBorder_zero (text : Bytes) : text.IsBorder 0 := ⟨[], text.runes, rfl, rfl⟩

theorem isBorder_length (text : Bytes) : text.IsBorder text.length :=
  ⟨text.runes, [], (List.append_nil _).symm, by rw [ofRunes_runes]⟩

theorem RuneAt.isBorder (h : text.RuneAt place r) : text.IsBorder place := by
  obtain ⟨before, after, hrunes, hplace⟩ := h
  exact ⟨before, r :: after, hrunes, hplace⟩

theorem RuneAt.isBorder_behind (h : text.RuneAt place r) :
    text.IsBorder (place + r.bytes.length) := by
  obtain ⟨before, after, hrunes, rfl⟩ := h
  exact ⟨before ++ [r], after, by simpa using hrunes, by simp⟩

/-- A border does not lie within a rune. -/
theorem RuneAt.border_cases (h : text.RuneAt place r) (hborder : text.IsBorder stop) :
    stop ≤ place ∨ place + r.bytes.length ≤ stop := by
  obtain ⟨before, after, hrunes, rfl⟩ := h
  obtain ⟨rs, ss, hparts, rfl⟩ := hborder
  rcases cut_cases (hparts.symm.trans hrunes) with ⟨more, rfl, -⟩ | ⟨more, rfl, -⟩
  · left
    simp
  · right
    simp

/-- Between two borders stands a part of the text that reads as it does within the text. -/
theorem IsBorder.between (hstart : text.IsBorder start) (hstop : text.IsBorder stop)
    (hle : start ≤ stop) : ∃ before inside after : Bytes, text = before ++ (inside ++ after) ∧
      before.length = start ∧ (before ++ inside).length = stop ∧
      text.runes = before.runes ++ (inside.runes ++ after.runes) := by
  obtain ⟨rs, ss, hrunes, rfl⟩ := hstart
  obtain ⟨before, rest, rfl, rfl, hrest⟩ := runes_eq_append hrunes
  obtain ⟨rs', ss', hparts, rfl⟩ := hstop
  rw [ofRunes_runes] at hle ⊢
  rcases List.append_eq_append_iff.mp (hrunes.symm.trans hparts) with
    ⟨more, rfl, hss⟩ | ⟨more, hbefore, -⟩
  · obtain ⟨inside, after, rfl, hinside, hafter⟩ := runes_eq_append (hrest.trans hss)
    refine ⟨before, inside, after, rfl, rfl, ?_, ?_⟩
    · rw [ofRunes_append, ofRunes_runes, ← hinside, ofRunes_runes]
    · rw [hrunes, hss, hinside, hafter]
  · have hlength := congrArg (fun rs => (ofRunes rs).length) hbefore
    simp only [ofRunes_runes, ofRunes_append, List.length_append] at hlength
    exact ⟨before, [], rest, rfl, rfl, by rw [List.append_nil]; omega, by simp [hrunes, hrest]⟩

end Bytes

end Scribe
