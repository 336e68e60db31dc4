import Mathlib
import Scribe.Proofs.Text.Runes
import Scribe.Text.Space

/-!
# Trimmed texts

White space at the ends of a text consists of whole runes. So a trimmed text is a part of the text
that reads as it did, trimming it again takes nothing away, and white space in front of a text is
not noticed.
-/

namespace Scribe

namespace Bytes

theorem trimRunes_between (rs : List Rune) : ∃ after,
    rs = rs.takeWhile (isSpace ·.char) ++ (trimRunes rs ++ after) ∧
      ∀ r ∈ after, isSpace r.char = true := by
  let after := (rs.dropWhile (isSpace ·.char)).rtakeWhile fun r => isSpace r.char
  have hkept : trimRunes rs ++ after = rs.dropWhile (isSpace ·.char) :=
    List.rdropWhile_append_rtakeWhile
  have hafter : ∀ r ∈ after, isSpace r.char = true := fun r hr =>
    List.mem_takeWhile_imp (p := fun r : Rune => isSpace r.char) (List.mem_reverse.mp hr)
  exact ⟨after, by rw [hkept, List.takeWhile_append_dropWhile], hafter⟩

/-- What is left does not end with white space. -/
theorem isSpace_of_getLast?_trimRunes {rs : List Rune} {r : Rune}
    (h : (trimRunes rs).getLast? = some r) : isSpace r.char = false := by
  rw [trimRunes, List.getLast?_reverse] at h
  have hhead := List.head?_dropWhile_not (fun r : Rune => isSpace r.char)
    (rs.dropWhile fun r => isSpace r.char).reverse
  rw [h] at hhead
  exact hhead

/-- What nothing is dropped from at its front has no beginning that anything is dropped from. -/
theorem dropWhile_of_prefix {p : Rune → Bool} {rs ss : List Rune} (h : rs <+: ss)
    (hss : ss.dropWhile p = ss) : rs.dropWhile p = rs := by
  obtain ⟨after, rfl⟩ := h
  cases rs with
  | nil => rfl
  | cons r rs =>
      have hfirst := List.dropWhile_eq_self_iff.mp hss (Nat.succ_pos _)
      exact List.dropWhile_cons_of_neg hfirst

theorem trimRunes_trimRunes (rs : List Rune) : trimRunes (trimRunes rs) = trimRunes rs := by
  have hfront : (trimRunes rs).dropWhile (fun r => isSpace r.char) = trimRunes rs :=
    dropWhile_of_prefix (List.rdropWhile_prefix _ _) (List.dropWhile_idempotent _ _)
  have hagain : trimRunes (trimRunes rs) = ((trimRunes rs).dropWhile
      fun r => isSpace r.char).rdropWhile fun r => isSpace r.char := rfl
  rw [hagain, hfront]
  exact List.rdropWhile_idempotent _ _

/-- A trimmed text reads as it did within the text. -/
theorem trim_between (text : Bytes) : ∃ before after,
    text = before ++ (trim text ++ after) ∧ (trim text).runes = trimRunes text.runes := by
  obtain ⟨ss, hrunes, -⟩ := trimRunes_between text.runes
  obtain ⟨before, rest, htext, -, hrest⟩ := runes_eq_append hrunes
  obtain ⟨kept, after, hparts, hkept, -⟩ := runes_eq_append hrest
  have htrim : trim text = kept := by rw [trim, ← hkept, ofRunes_runes]
  exact ⟨before, after, by rw [htrim, ← hparts, htext], by rw [htrim, hkept]⟩

theorem runes_trim (text : Bytes) : (trim text).runes = trimRunes text.runes := by
  obtain ⟨before, after, -, hrunes⟩ := trim_between text
  exact hrunes

theorem trim_trim (text : Bytes) : trim (trim text) = trim text := by
  rw [trim, runes_trim, trimRunes_trimRunes]
  rfl

theorem trim_sublist (text : Bytes) : List.Sublist (trim text) text := by
  obtain ⟨before, after, htext, -⟩ := trim_between text
  conv_rhs => rw [htext]
  exact (List.sublist_append_left _ _).trans (List.sublist_append_right _ _)

/-- White space is spelled as its characters are: no malformed byte is any. -/
theorem eq_ofChars_of_isBlank {text : Bytes} (h : isBlank text = true) :
    text = ofChars text.chars := by
  have hrunes : ∀ r ∈ text.runes, r.bytes = utf8Char r.char := by
    intro r hr
    have hspace : isSpace r.char = true := List.all_eq_true.mp h r hr
    rcases rune_cases hr with ⟨b, -, rfl⟩ | hchar
    · cases hspace
    · exact congrArg Rune.bytes hchar
  conv_lhs => rw [← ofRunes_runes text]
  rw [ofRunes, ofChars, chars, List.flatMap_map]
  exact List.flatMap_congr hrunes

/-- White space in front of a text is trimmed away. -/
theorem trim_append_of_isBlank {before : Bytes} (h : isBlank before = true) (text : Bytes) :
    trim (before ++ text) = trim text := by
  have hrunes : (before ++ text).runes = before.chars.map Rune.ofChar ++ text.runes := by
    conv_lhs => rw [eq_ofChars_of_isBlank h]
    exact runes_ofChars_append before.chars text
  have hspaces : ∀ r ∈ before.chars.map Rune.ofChar, isSpace r.char = true := by
    intro r hr
    obtain ⟨c, hc, rfl⟩ := List.mem_map.mp hr
    obtain ⟨s, hs, rfl⟩ := List.mem_map.mp hc
    exact List.all_eq_true.mp h s hs
  rw [trim, trim, hrunes, trimRunes, List.dropWhile_append_of_pos hspaces]
  rfl

theorem trim_eq_nil_iff (text : Bytes) : trim text = [] ↔ isBlank text = true := by
  constructor
  · intro h
    have hnone : trimRunes text.runes = [] := by rw [← runes_trim, h, runes_nil]
    have hfront : (text.runes.dropWhile fun r => isSpace r.char).rdropWhile
        (fun r => isSpace r.char) = [] := hnone
    rw [List.rdropWhile_eq_nil_iff] at hfront
    rw [isBlank, List.all_eq_true]
    intro r hr
    rw [← List.takeWhile_append_dropWhile (p := fun r => isSpace r.char) (l := text.runes)] at hr
    rcases List.mem_append.mp hr with hr | hr
    · exact List.mem_takeWhile_imp (p := fun r : Rune => isSpace r.char) hr
    · exact hfront r hr
  · intro h
    have hnone := trim_append_of_isBlank h []
    rw [List.append_nil] at hnone
    exact hnone.trans (by rw [trim, runes_nil]; rfl)

theorem trimRunes_concat (rs : List Rune) {r : Rune} (h : isSpace r.char = true) :
    trimRunes (rs ++ [r]) = trimRunes rs := by
  have hrdrop : ∀ ss : List Rune, trimRunes ss =
      (ss.dropWhile fun r => isSpace r.char).rdropWhile fun r => isSpace r.char := fun _ => rfl
  rw [hrdrop, hrdrop, List.dropWhile_append]
  split
  · next hnone =>
      have hone : [r].dropWhile (fun r => isSpace r.char) = [] := List.dropWhile_cons_of_pos h
      rw [List.isEmpty_iff.mp hnone, hone]
  · exact List.rdropWhile_concat_pos _ _ _ h

theorem isSpace_ascii {b : UInt8} (hprint : 0x20 < b) (hascii : b < 0x80) :
    isSpace (Rune.ascii b).char = false := by
  have hall : ∀ n < 128, 32 < n → isSpace (Char.ofNat n) = false := by decide
  exact hall b.toNat (UInt8.lt_iff_toNat_lt.mp hascii) (UInt8.lt_iff_toNat_lt.mp hprint)

theorem trimRunes_of_no_space {rs : List Rune} (h : ∀ r ∈ rs, isSpace r.char = false) :
    trimRunes rs = rs := by
  have hkept : ∀ ss : List Rune, (∀ r ∈ ss, isSpace r.char = false) →
      ss.dropWhile (fun r => isSpace r.char) = ss := by
    intro ss hss
    cases ss with
    | nil => rfl
    | cons r ss => exact List.dropWhile_cons_of_neg (by simp [hss r List.mem_cons_self])
  have hback : ∀ r ∈ rs.reverse, isSpace r.char = false := fun r hr => h r (List.mem_reverse.mp hr)
  rw [trimRunes, hkept rs h, hkept rs.reverse hback, List.reverse_reverse]

theorem trimRunes_append_spaces (rs : List Rune) {ss : List Rune}
    (h : ∀ r ∈ ss, isSpace r.char = true) : trimRunes (rs ++ ss) = trimRunes rs := by
  induction ss using List.reverseRecOn with
  | nil => rw [List.append_nil]
  | append_singleton ss r ih =>
      rw [← List.append_assoc, trimRunes_concat _ (h r (by simp)),
        ih fun s hs => h s (List.mem_append_left _ hs)]

/-- A text of visible ASCII characters is what is left of it between white space. -/
theorem trim_spaced {before text after : Bytes} (hbefore : isBlank before = true)
    (htext : ∀ b ∈ text, 0x20 < b ∧ b < 0x80) (hafter : isBlank after = true) :
    trim (before ++ text ++ after) = text := by
  have hrunes : (text ++ after).runes = text.map Rune.ascii ++ after.runes :=
    runes_ascii_append text (fun b hb => (htext b hb).2) after
  have hnone : ∀ r ∈ text.map Rune.ascii, isSpace r.char = false := by
    intro r hr
    obtain ⟨b, hb, rfl⟩ := List.mem_map.mp hr
    exact isSpace_ascii (htext b hb).1 (htext b hb).2
  rw [List.append_assoc, trim_append_of_isBlank hbefore, trim, hrunes,
    trimRunes_append_spaces _ (List.all_eq_true.mp hafter), trimRunes_of_no_space hnone,
    ofRunes_ascii]

/-- A trimmed text neither begins nor ends with white space of ASCII. -/
theorem ends_of_trim {text : Bytes} (htrim : trim text = text) {b : UInt8} (hb : b < 0x80)
    (hspace : isSpace (Rune.ascii b).char = true) :
    text.head? ≠ some b ∧ text.getLast? ≠ some b := by
  constructor
  · intro hhead
    obtain ⟨rest, rfl⟩ := List.head?_eq_some_iff.mp hhead
    have hblank : isBlank [b] = true := by
      rw [isBlank, runes_ascii_cons hb, runes_nil]
      simpa using hspace
    have hshorter := (trim_sublist rest).length_le
    rw [← List.singleton_append, trim_append_of_isBlank hblank] at htrim
    rw [htrim, List.length_append, List.length_singleton] at hshorter
    omega
  · intro hlast
    obtain ⟨before, rfl⟩ := List.getLast?_eq_some_iff.mp hlast
    have hrunes : runes (before ++ [b]) = runes before ++ [Rune.ascii b] := by
      rw [runes_append hb, runes_ascii_cons hb, runes_nil]
    have hshorter := (trim_sublist before).length_le
    rw [trim, hrunes, trimRunes_concat _ hspace] at htrim
    rw [trim, htrim, List.length_append, List.length_singleton] at hshorter
    omega

end Bytes

end Scribe
