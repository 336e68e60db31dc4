import Scribe.Proofs.Text.Cut

/-!
# Texts read from their end

The last rune of a text can be found from its end: of the bytes before the last one, at most three
are looked at for one that may start a character, and the character has to reach up to the end. A
text that is read so, rune by rune, has the same runes as one that is read from its front.
-/

namespace Scribe

namespace Rune

/-- The last rune of a text and what stands in front of it. The bytes of the text, and of what
stands in front, are given last first. -/
def last (b : UInt8) (back : Bytes) : Rune × Bytes :=
  if b < 0x80 then (ascii b, back)
  else
    let tail := (back.take 3).takeWhile isContinuation
    match back.drop tail.length with
    | [] => (malformed b, back)
    | lead :: more =>
        match first lead (tail.reverse ++ [b]) with
        | (r, []) => (r, more)
        | _ => (malformed b, back)

/-- A byte alone, or one that starts a character which reaches up to the end. -/
theorem last_cases (b : UInt8) (back : Bytes) :
    b < 0x80 ∧ last b back = (ascii b, back) ∨ ¬ b < 0x80 ∧ last b back = (malformed b, back) ∨
      ∃ tail lead more r, back = tail ++ lead :: more ∧
        first lead (tail.reverse ++ [b]) = (r, []) ∧ last b back = (r, more) := by
  unfold last
  split
  · next hb => exact .inl ⟨hb, rfl⟩
  · next hb =>
      right
      dsimp only
      split
      · exact .inl ⟨hb, rfl⟩
      · next lead more hdrop =>
          split
          · next r hfirst =>
              right
              refine ⟨_, lead, more, r, ?_, hfirst, rfl⟩
              have hbegins : (back.take 3).takeWhile isContinuation <+: back :=
                (List.takeWhile_prefix _).trans (List.take_prefix 3 back)
              rw [← hdrop, List.prefix_iff_eq_append.mp hbegins]
          · exact .inl ⟨hb, rfl⟩

theorem last_rest_length (b : UInt8) (back : Bytes) :
    (last b back).2.length < (b :: back).length := by
  rcases last_cases b back with ⟨-, h⟩ | ⟨-, h⟩ | ⟨tail, lead, more, r, rfl, -, h⟩
  · rw [h]
    exact Nat.lt_succ_self _
  · rw [h]
    exact Nat.lt_succ_self _
  · rw [h, List.length_cons, List.length_append, List.length_cons]
    dsimp only
    omega

/-- A character at the end of a text is found from there. -/
theorem last_utf8Char (c : Char) (before : Bytes) :
    ∃ b back, (before ++ utf8Char c).reverse = b :: back ∧
      last b back = (ofChar c, before.reverse) := by
  obtain ⟨lead, tail, hspelling, htail, hlength⟩ := utf8Char_form c
  have hfirst : first lead tail = (ofChar c, []) := by
    obtain ⟨d, more, hsame, hfirst⟩ := first_utf8Char c []
    rw [hspelling, List.cons.injEq] at hsame
    rwa [← hsame.1, ← hsame.2, List.append_nil] at hfirst
  rcases List.eq_nil_or_concat' tail with rfl | ⟨inside, b, rfl⟩
  · have hascii : lead < 0x80 :=
      Bytes.ascii_of_length_utf8Char (by rw [hspelling]; rfl) lead (by rw [hspelling]; simp)
    rw [first_ascii hascii, Prod.mk.injEq] at hfirst
    refine ⟨lead, before.reverse, by rw [hspelling]; simp, ?_⟩
    rw [last, if_pos hascii, hfirst.1]
  · have hlead := sequenceLength_eq_some_iff.mp (hlength (by simp))
    have hstart : isContinuation lead = false := by
      rw [Bool.eq_false_iff, Ne, isContinuation_iff]
      omega
    have hb : ¬ b < 0x80 := not_ascii (isContinuation_iff.mp (htail b (by simp))).1
    have hinside : ∀ d ∈ inside.reverse, isContinuation d = true :=
      fun d hd => htail d (by simpa using .inl (List.mem_reverse.mp hd))
    have hshort : inside.reverse.length ≤ 2 := by
      rw [List.length_append, List.length_singleton] at hlead
      rw [List.length_reverse]
      omega
    refine ⟨b, inside.reverse ++ lead :: before.reverse, by rw [hspelling]; simp, ?_⟩
    have hlooked : ((inside.reverse ++ lead :: before.reverse).take 3).takeWhile isContinuation =
        inside.reverse := by
      obtain ⟨k, hk⟩ := Nat.exists_eq_add_of_lt (Nat.lt_succ_of_le hshort)
      rw [List.take_append, List.take_of_length_le (by omega),
        show 3 - inside.reverse.length = k + 1 by omega, List.take_succ_cons,
        List.takeWhile_append_of_pos hinside, List.takeWhile_cons_of_neg (by simp [hstart]),
        List.append_nil]
    rw [last, if_neg hb]
    simp only [hlooked, List.drop_left, List.reverse_reverse, hfirst]

end Rune

namespace Bytes

open Rune

/-- A character that reaches up to the end of a text is the last one. -/
theorem runes_append_whole {lead : UInt8} {tail : Bytes} {r : Rune} (hmore : tail ≠ [])
    (h : first lead tail = (r, [])) (before : Bytes) :
    runes (before ++ lead :: tail) = runes before ++ [r] := by
  have hstart : isContinuation lead = false := by
    rw [Bool.eq_false_iff]
    intro hcontinue
    rw [first_continuation hcontinue] at h
    exact hmore (Prod.mk.inj h).2
  rw [runes_append_start hstart, runes_cons, h, runes_nil]

/-- The last rune that is found from the end is the last one that is read from the front. -/
theorem runes_reverse_cons (b : UInt8) (back : Bytes) :
    runes (b :: back).reverse = runes (last b back).2.reverse ++ [(last b back).1] := by
  have hsome : runes (b :: back).reverse ≠ [] := by
    intro hnone
    have hspelling := ofRunes_runes (b :: back).reverse
    rw [hnone] at hspelling
    simp at hspelling
  obtain ⟨rs, r, hrunes⟩ := (List.eq_nil_or_concat' _).resolve_left hsome
  obtain ⟨before, after, htext, hbefore, hafter⟩ := runes_eq_append hrunes
  have hspelling : after = r.bytes := by
    rw [← ofRunes_runes after, hafter, ofRunes_cons, ofRunes_nil, List.append_nil]
  rcases rune_cases (show r ∈ after.runes by simp [hafter]) with ⟨d, hd, rfl⟩ | hchar
  · have hends : b :: back = d :: before.reverse := by
      rw [← List.reverse_reverse (b :: back), htext, hspelling, List.reverse_append]
      rfl
    obtain ⟨rfl, rfl⟩ := List.cons.inj hends
    rcases last_cases b before.reverse with ⟨hb, -⟩ | ⟨-, hlast⟩ |
      ⟨tail, lead, more, s, hback, hfirst, -⟩
    · exact absurd hb hd
    · rw [hrunes, hlast, List.reverse_reverse, hbefore]
    · -- The last byte would be part of a character of two bytes or more.
      have hwhole := runes_append_whole (by simp) hfirst more.reverse
      have hparts : more.reverse ++ lead :: (tail.reverse ++ [b]) =
          (b :: before.reverse).reverse := by
        rw [hback]
        simp
      rw [hparts, hrunes] at hwhole
      have hsame : malformed b = s :=
        List.singleton_inj.mp (List.append_inj_right' hwhole rfl)
      have hlonger := first_spelling lead (tail.reverse ++ [b])
      rw [hfirst, ← hsame] at hlonger
      simp [malformed] at hlonger
  · obtain ⟨d, more, hreverse, hlast⟩ := last_utf8Char r.char before
    have hbytes : after = utf8Char r.char := hspelling.trans (congrArg Rune.bytes hchar)
    rw [← hbytes, ← htext, List.reverse_reverse, List.cons.injEq] at hreverse
    obtain ⟨rfl, rfl⟩ := hreverse
    rw [hrunes, hlast, List.reverse_reverse, hbefore, ← hchar]

end Bytes

end Scribe
