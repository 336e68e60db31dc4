import Scribe.Proofs.Text.Runes

/-!
# Texts cut at a byte

A text of characters that is cut at a byte is cut between two characters or inside of one. What is
left of a character that is cut reads as malformed bytes on both sides. As long as bytes and
characters are counted alike, every cut is between two characters.
-/

namespace Scribe

namespace Rune

/-- The bytes of a character behind its first one continue it, and the first one tells how many they
are. -/
theorem utf8Char_form (c : Char) : ∃ b tail, utf8Char c = b :: tail ∧
    (∀ d ∈ tail, isContinuation d = true) ∧
      (tail ≠ [] → sequenceLength? b = some (tail.length + 1)) := by
  obtain ⟨b, tail, hspelling, hfirst⟩ := first_utf8Char c []
  refine ⟨b, tail, hspelling, ?_⟩
  rw [List.append_nil] at hfirst
  have hform := first_form b tail
  rw [hfirst] at hform
  generalize hresult : (ofChar c, ([] : Bytes)) = result at hform
  have hcontinue : ∀ {d : UInt8}, mayFollow b d = true → isContinuation d = true := by
    intro d hd
    have h := mayFollow_iff.mp hd
    exact isContinuation_iff.mpr ⟨h.1, h.2.1⟩
  have hlength : ∀ n : Nat, n = 2 ∧ 0xC2 ≤ b.toNat ∧ b.toNat ≤ 0xDF ∨
      n = 3 ∧ 0xE0 ≤ b.toNat ∧ b.toNat ≤ 0xEF ∨ n = 4 ∧ 0xF0 ≤ b.toNat ∧ b.toNat ≤ 0xF4 →
      sequenceLength? b = some n := fun n hn => sequenceLength_eq_some_iff.mpr hn
  cases hform with
  | ascii hb =>
      cases (Prod.mk.inj hresult).2
      simp
  | two hb hc =>
      cases (Prod.mk.inj hresult).2
      exact ⟨by simpa using hcontinue hc, fun _ => hlength 2 (by omega)⟩
  | three hb hc hd =>
      cases (Prod.mk.inj hresult).2
      exact ⟨by simpa [hd] using hcontinue hc, fun _ => hlength 3 (by omega)⟩
  | four hb hc hd he =>
      cases (Prod.mk.inj hresult).2
      exact ⟨by simpa [hd, he] using hcontinue hc, fun _ => hlength 4 (by omega)⟩
  | malformed hb =>
      cases (Prod.mk.inj hresult).2
      simp

theorem first_continuation {b : UInt8} (h : isContinuation b = true) (rest : Bytes) :
    first b rest = (malformed b, rest) := by
  have hb := isContinuation_iff.mp h
  have hnone : sequenceLength? b = none := by
    rw [Option.eq_none_iff_forall_not_mem]
    intro n hn
    have hlead := sequenceLength_eq_some_iff.mp hn
    omega
  unfold first
  simp only [if_neg (not_ascii hb.1), hnone]

theorem first_short {b : UInt8} {n : Nat} (h : sequenceLength? b = some n) {rest : Bytes}
    (hshort : rest.length + 1 < n) : first b rest = (malformed b, rest) := by
  have hlead := sequenceLength_eq_some_iff.mp h
  unfold first
  rw [if_neg (not_ascii (by omega)), h]
  rcases hlead with ⟨rfl, -⟩ | ⟨rfl, -⟩ | ⟨rfl, -⟩
  · rcases rest with _ | ⟨c, rest⟩
    · rfl
    · rw [List.length_cons] at hshort
      omega
  · rcases rest with _ | ⟨c, _ | ⟨d, rest⟩⟩
    · rfl
    · rfl
    · rw [List.length_cons, List.length_cons] at hshort
      omega
  · rcases rest with _ | ⟨c, _ | ⟨d, _ | ⟨e, rest⟩⟩⟩
    · rfl
    · rfl
    · rfl
    · rw [List.length_cons, List.length_cons, List.length_cons] at hshort
      omega

end Rune

namespace Bytes

open Rune

theorem runes_ofChars (cs : List Char) : runes (ofChars cs) = cs.map ofChar := by
  have h := runes_ofChars_append cs []
  rwa [List.append_nil, runes_nil, List.append_nil] at h

theorem runes_continuations {bytes : Bytes} (h : ∀ b ∈ bytes, isContinuation b = true)
    (rest : Bytes) : runes (bytes ++ rest) = bytes.map malformed ++ runes rest := by
  induction bytes with
  | nil => rfl
  | cons b bytes ih =>
      rw [List.cons_append, runes_cons, first_continuation (h b List.mem_cons_self),
        ih fun d hd => h d (List.mem_cons_of_mem b hd)]
      rfl

/-- The beginning of a character reads as malformed bytes. -/
theorem runes_take_char (c : Char) {j : Nat} (h : j < (utf8Char c).length) :
    runes ((utf8Char c).take j) = ((utf8Char c).take j).map malformed := by
  cases j with
  | zero => simp
  | succ j =>
      obtain ⟨b, tail, hspelling, htail, hlength⟩ := utf8Char_form c
      rw [hspelling, List.length_cons] at h
      have hne : tail ≠ [] := by
        rintro rfl
        simp at h
      have hshort : (tail.take j).length + 1 < tail.length + 1 := by
        rw [List.length_take]
        omega
      have hbegin : ∀ d ∈ tail.take j, isContinuation d = true :=
        fun d hd => htail d (List.mem_of_mem_take hd)
      have hrest := runes_continuations hbegin []
      rw [List.append_nil, runes_nil, List.append_nil] at hrest
      rw [hspelling, List.take_succ_cons, runes_cons, first_short (hlength hne) hshort, hrest]
      rfl

/-- The end of a character reads as malformed bytes, whatever stands behind it. -/
theorem runes_drop_char (c : Char) {j : Nat} (h : 0 < j) (rest : Bytes) :
    runes ((utf8Char c).drop j ++ rest) = ((utf8Char c).drop j).map malformed ++ runes rest := by
  obtain ⟨b, tail, hspelling, htail, -⟩ := utf8Char_form c
  obtain ⟨i, rfl⟩ := Nat.exists_eq_succ_of_ne_zero (Nat.ne_of_gt h)
  rw [hspelling, List.drop_succ_cons]
  exact runes_continuations (fun d hd => htail d (List.mem_of_mem_drop hd)) rest

/-! ## Where a cut is -/

theorem ofChars_cons (c : Char) (cs : List Char) : ofChars (c :: cs) = utf8Char c ++ ofChars cs :=
  rfl

theorem length_utf8Char_pos (c : Char) : 0 < (utf8Char c).length := by
  obtain ⟨b, tail, hspelling, -⟩ := utf8Char_form c
  rw [hspelling]
  exact Nat.succ_pos _

theorem length_le_ofChars (cs : List Char) : cs.length ≤ (ofChars cs).length := by
  induction cs with
  | nil => exact Nat.le_refl 0
  | cons c cs ih =>
      have hpos := length_utf8Char_pos c
      rw [ofChars_cons, List.length_append, List.length_cons]
      omega

/-- The characters in front of a cut, and those from the first one on that ends behind it. -/
theorem exists_cut (cs : List Char) (place : Nat) : ∃ front back, cs = front ++ back ∧
    (ofChars front).length ≤ place ∧
      ∀ c more, back = c :: more → place < (ofChars (front ++ [c])).length := by
  induction cs generalizing place with
  | nil => exact ⟨[], [], rfl, Nat.zero_le _, nofun⟩
  | cons c cs ih =>
      by_cases h : (utf8Char c).length ≤ place
      · obtain ⟨front, back, hparts, hfront, hback⟩ := ih (place - (utf8Char c).length)
        refine ⟨c :: front, back, by rw [hparts, List.cons_append], ?_, ?_⟩
        · rw [ofChars_cons, List.length_append]
          omega
        · intro d more hd
          have hbehind := hback d more hd
          rw [List.cons_append, ofChars_cons, List.length_append]
          omega
      · refine ⟨[], c :: cs, rfl, Nat.zero_le _, ?_⟩
        rintro d more ⟨⟩
        simpa [ofChars] using Nat.not_le.mp h

/-- The characters that end behind a cut are those from it on. -/
theorem forall_behind_cut {front back : List Char} {place : Nat} {P : Char → Prop}
    (hfront : (ofChars front).length ≤ place)
    (hback : ∀ c more, back = c :: more → place < (ofChars (front ++ [c])).length) :
    (∀ before c after, front ++ back = before ++ c :: after →
      place < (ofChars (before ++ [c])).length → P c) ↔ ∀ c ∈ back, P c := by
  constructor
  · intro h c hc
    obtain ⟨passed, after, rfl⟩ := List.append_of_mem hc
    refine h (front ++ passed) c after (List.append_assoc ..).symm ?_
    cases passed with
    | nil => simpa using hback c after rfl
    | cons d passed =>
        have hd := hback d _ rfl
        rw [List.append_cons front, List.append_assoc (front ++ [d]), ofChars_append,
          List.length_append]
        exact Nat.lt_of_lt_of_le hd (Nat.le_add_right _ _)
  · intro h before c after hparts hplace
    rcases List.append_eq_append_iff.mp hparts with ⟨passed, -, hback⟩ | ⟨passed, hfront', hrest⟩
    · exact h c (by simp [hback])
    · cases passed with
      | nil =>
          rw [List.nil_append] at hrest
          exact h c (hrest ▸ List.mem_cons_self)
      | cons d passed =>
          obtain ⟨rfl, -⟩ := List.cons.inj hrest
          rw [hfront', List.append_cons, ofChars_append,
            List.length_append] at hfront
          omega

/-! ## Texts of ASCII -/

theorem char_of_mem_utf8Char {c : Char} {d : UInt8} (h : d ∈ utf8Char c) (hd : d < 0x80) :
    c = (ascii d).char := by
  obtain ⟨b, tail, -, hfirst⟩ := first_utf8Char c []
  rw [List.append_nil] at hfirst
  have hmem : d ∈ (first b tail).1.bytes := by rwa [hfirst]
  have hrune := first_eq_ascii hmem hd
  rw [hfirst] at hrune
  exact congrArg Rune.char hrune

theorem ascii_of_length_utf8Char {c : Char} (h : (utf8Char c).length = 1) :
    ∀ b ∈ utf8Char c, b < 0x80 := by
  obtain ⟨b, tail, hspelling, hfirst⟩ := first_utf8Char c []
  rw [hspelling, List.length_cons, Nat.succ_inj, List.length_eq_zero_iff] at h
  subst h
  rw [hspelling, List.forall_mem_singleton]
  have hform := first_form b []
  rw [List.append_nil] at hfirst
  rw [hfirst] at hform
  generalize hresult : (ofChar c, ([] : Bytes)) = result at hform
  cases hform with
  | ascii hb => exact hb
  | malformed hb =>
      -- The character that malformed bytes read as has a spelling of its own.
      have hchar : c = replacement := congrArg (·.1.char) hresult
      have hlength : (utf8Char replacement).length = 1 := by
        rw [← hchar, hspelling, List.length_singleton]
      exact absurd hlength (by decide)

theorem length_utf8Char_of_ascii {c : Char} (h : ∀ b ∈ utf8Char c, b < 0x80) :
    (utf8Char c).length = 1 := by
  obtain ⟨b, tail, hspelling, hfirst⟩ := first_utf8Char c []
  rw [first_ascii (h b (by simp [hspelling])), Prod.mk.injEq, List.append_nil] at hfirst
  rw [hspelling, hfirst.2, List.length_singleton]

theorem length_ofChars_of_ascii {cs : List Char} (h : ∀ b ∈ ofChars cs, b < 0x80) :
    (ofChars cs).length = cs.length := by
  induction cs with
  | nil => rfl
  | cons c cs ih =>
      rw [ofChars_cons, List.forall_mem_append] at h
      rw [ofChars_cons, List.length_append, length_utf8Char_of_ascii h.1, ih h.2, List.length_cons,
        Nat.add_comm]

theorem ascii_of_length_ofChars {cs : List Char} (h : (ofChars cs).length = cs.length) :
    ∀ b ∈ ofChars cs, b < 0x80 := by
  induction cs with
  | nil => exact nofun
  | cons c cs ih =>
      have hpos := length_utf8Char_pos c
      have hrest := length_le_ofChars cs
      rw [ofChars_cons, List.length_append, List.length_cons] at h
      intro b hb
      rcases List.mem_append.mp hb with hb | hb
      · exact ascii_of_length_utf8Char (by omega) b hb
      · exact ih (by omega) b hb

/-- A beginning of ASCII has as many characters as bytes. -/
theorem ofChars_take_of_ascii {cs : List Char} {text : Bytes} (hascii : ∀ b ∈ text, b < 0x80)
    (h : text <+: ofChars cs) : ofChars (cs.take text.length) = text := by
  induction text generalizing cs with
  | nil => rfl
  | cons b text ih =>
      cases cs with
      | nil => simp [ofChars] at h
      | cons c cs =>
          obtain ⟨d, tail, hspelling, hfirst⟩ := first_utf8Char c []
          rw [ofChars_cons, hspelling, List.cons_append, List.cons_prefix_cons] at h
          obtain ⟨rfl, h⟩ := h
          rw [first_ascii (hascii b List.mem_cons_self), Prod.mk.injEq, List.append_nil] at hfirst
          obtain ⟨-, rfl⟩ := hfirst
          rw [List.length_cons, List.take_succ_cons, ofChars_cons, hspelling,
            ih (fun e he => hascii e (List.mem_cons_of_mem b he)) h, List.singleton_append]

/-- As many characters as a text has bytes are that text, if it is in front of them, exactly if it
is of ASCII or there is nothing else. -/
theorem ofChars_take_eq_iff {cs : List Char} {text : Bytes} :
    ofChars (cs.take text.length) = text ↔
      text <+: ofChars cs ∧ ((∀ b ∈ text, b < 0x80) ∨ ofChars cs = text) := by
  constructor
  · intro h
    have hbegins : ofChars (cs.take text.length) <+: ofChars cs := by
      conv_rhs => rw [← List.take_append_drop text.length cs, ofChars_append]
      exact List.prefix_append _ _
    rw [h] at hbegins
    refine ⟨hbegins, ?_⟩
    by_cases hlength : text.length ≤ cs.length
    · left
      have hsame : (ofChars (cs.take text.length)).length = (cs.take text.length).length := by
        rw [h, List.length_take_of_le hlength]
      have hascii := ascii_of_length_ofChars hsame
      rwa [h] at hascii
    · right
      rwa [List.take_of_length_le (Nat.le_of_not_le hlength)] at h
  · rintro ⟨hbegins, hascii | hwhole⟩
    · exact ofChars_take_of_ascii hascii hbegins
    · rw [List.take_of_length_le, hwhole]
      rw [← hwhole]
      exact length_le_ofChars cs

end Bytes

end Scribe
