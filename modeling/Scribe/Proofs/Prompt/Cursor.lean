import Scribe.Proofs.Prompt.Selection
import Scribe.Proofs.Text.Cut

/-!
# The word at the cursor

The editor counts the characters before the cursor, and the word at the cursor is looked for at that
number of bytes. Both are the same place as long as all that stands before the cursor is ASCII.
Otherwise the place lies before the cursor, between two characters or inside of one, and the word
found there is the word at the cursor exactly if no boundary stands in between. Likewise the cursor
is put behind a candidate by the number of bytes before it.
-/

namespace Scribe

namespace Prompt

variable {ε : Type} [Parts ε]

def front (p : Prompt ε) : Bytes := Bytes.ofChars (p.text.take p.cursor)

/-- A span is the longest run of characters around the cursor that holds no boundary. -/
def HasWord (p : Prompt ε) (s : Word.Span) : Prop :=
  ∃ before left right after : List Char,
    p.text.take p.cursor = before ++ left ∧ p.text.drop p.cursor = right ++ after ∧
    (∀ c ∈ left ++ right, Word.isBoundary c = false) ∧
    (∀ c, before.getLast? = some c → Word.isBoundary c = true) ∧
    (∀ c, after.head? = some c → Word.isBoundary c = true) ∧
    s = ⟨(Bytes.ofChars before).length, (Bytes.ofChars (before ++ left ++ right)).length⟩

/-- No character before the cursor is a boundary, among those that end behind as many bytes of the
line as there are characters before the cursor. -/
def CountsAlike (p : Prompt ε) : Prop :=
  ∀ before c after, p.text.take p.cursor = before ++ c :: after →
    p.cursor < (Bytes.ofChars (before ++ [c])).length → Word.isBoundary c = false

end Prompt

namespace Word

open Bytes (ofChars)

def isInner (c : Char) : Bool := !isBoundary c

/-- The word between the characters on both sides of a place. -/
def between (before after : List Char) : Span :=
  ⟨(ofChars (before.rdropWhile isInner)).length,
    (ofChars (before ++ after.takeWhile isInner)).length⟩

variable {front back rest : List Char}

/-! ## Words of a text that is cut -/

theorem takeWhile_ofChar (cs : List Char) :
    (cs.map Rune.ofChar).takeWhile (!isBoundary ·.char) = (cs.takeWhile isInner).map Rune.ofChar :=
  List.takeWhile_map ..

theorem inner_malformed {broken : Bytes} :
    ∀ r ∈ broken.map Rune.malformed, (!isBoundary r.char) = true := by
  rw [List.forall_mem_map]
  exact fun _ _ => show (!isBoundary Rune.replacement) = true by decide

theorem ofRunes_malformed (broken : Bytes) :
    Bytes.ofRunes (broken.map Rune.malformed) = broken := by
  induction broken with
  | nil => rfl
  | cons b broken ih => rw [List.map_cons, Bytes.ofRunes_cons, ih]; rfl

theorem ofRunes_ofChar (cs : List Char) : Bytes.ofRunes (cs.map Rune.ofChar) = ofChars cs :=
  List.flatMap_map ..

theorem leading_cut (right : Bytes) (back : List Char) :
    leading (right.map Rune.malformed ++ back.map Rune.ofChar) =
      right ++ ofChars (back.takeWhile isInner) := by
  rw [leading, List.takeWhile_append_of_pos inner_malformed, takeWhile_ofChar,
    Bytes.ofRunes_append, ofRunes_malformed, ofRunes_ofChar]

theorem trailing_cut (front : List Char) (left : Bytes) :
    trailing (front.map Rune.ofChar ++ left.map Rune.malformed) =
      ofChars (front.rtakeWhile isInner) ++ left := by
  have hleft : ∀ r ∈ (left.map Rune.malformed).reverse, (!isBoundary r.char) = true :=
    fun r hr => inner_malformed r (List.mem_reverse.mp hr)
  rw [trailing, List.reverse_append, List.takeWhile_append_of_pos hleft,
    ← List.map_reverse (l := front), takeWhile_ofChar, List.reverse_append, List.reverse_reverse,
    ← List.map_reverse, Bytes.ofRunes_append, ofRunes_malformed, ofRunes_ofChar]
  rfl

theorem ofChars_singleton (c : Char) : ofChars [c] = utf8Char c := by
  rw [Bytes.ofChars_cons, ofChars, List.flatMap_nil, List.append_nil]

theorem length_rdropWhile (cs : List Char) :
    (ofChars (cs.rdropWhile isInner)).length + (ofChars (cs.rtakeWhile isInner)).length =
      (ofChars cs).length := by
  rw [← List.length_append, ← Bytes.ofChars_append, List.rdropWhile_append_rtakeWhile]

/-- The word at a place at which a text falls into characters and pieces of a character. -/
theorem around_pieces {before after left right : Bytes}
    (hbefore : before.runes = front.map Rune.ofChar ++ left.map Rune.malformed)
    (hafter : after.runes = right.map Rune.malformed ++ back.map Rune.ofChar) :
    around (before ++ after) (before.length : Nat) =
      ⟨(ofChars (front.rdropWhile isInner)).length,
        (before ++ right ++ ofChars (back.takeWhile isInner)).length⟩ := by
  have hplace : clamp (before ++ after) (before.length : Nat) = before.length := by
    rw [clamp, Int.toNat_natCast, List.length_append, Nat.min_eq_left (Nat.le_add_right _ _)]
  have hspelling : before = ofChars front ++ left := by
    rw [← Bytes.ofRunes_runes before, hbefore, Bytes.ofRunes_append, ofRunes_ofChar,
      ofRunes_malformed]
  have hparts := length_rdropWhile front
  have hlength := congrArg List.length hspelling
  rw [around, hplace, List.take_left' rfl, List.drop_left' rfl, hbefore, hafter, leading_cut,
    trailing_cut]
  simp only [List.length_append, Span.mk.injEq] at hlength ⊢
  omega

/-- At a place between two characters the word is that of its two sides. -/
theorem around_border (front back : List Char) :
    around (ofChars (front ++ back)) ((ofChars front).length : Nat) = between front back := by
  have hfront :
      (ofChars front).runes = front.map Rune.ofChar ++ ([] : Bytes).map Rune.malformed := by
    rw [Bytes.runes_ofChars, List.map_nil, List.append_nil]
  have hback : (ofChars back).runes = ([] : Bytes).map Rune.malformed ++ back.map Rune.ofChar := by
    rw [Bytes.runes_ofChars, List.map_nil, List.nil_append]
  rw [Bytes.ofChars_append, around_pieces hfront hback, List.append_nil, ← Bytes.ofChars_append,
    between]

/-- At a place inside of a character the word reaches over that character, be it a boundary or
not. -/
theorem around_inside (front : List Char) (c : Char) (back : List Char) {j : Nat} (hpos : 0 < j)
    (hj : j < (utf8Char c).length) :
    around (ofChars (front ++ c :: back)) ((ofChars front).length + j : Nat) =
      ⟨(ofChars (front.rdropWhile isInner)).length,
        (ofChars (front ++ c :: back.takeWhile isInner)).length⟩ := by
  have hplace : (ofChars front).length + j = (ofChars front ++ (utf8Char c).take j).length := by
    rw [List.length_append, List.length_take_of_le (Nat.le_of_lt hj)]
  have hbefore := Bytes.runes_ofChars_append front ((utf8Char c).take j)
  rw [Bytes.runes_take_char c hj] at hbefore
  have hafter := Bytes.runes_drop_char c hpos (ofChars back)
  rw [Bytes.runes_ofChars] at hafter
  have hsplit : ∀ more : Bytes, ofChars front ++ (utf8Char c ++ more) =
      ofChars front ++ (utf8Char c).take j ++ ((utf8Char c).drop j ++ more) := by
    intro more
    conv_lhs => rw [← List.take_append_drop j (utf8Char c)]
    simp only [List.append_assoc]
  have h := around_pieces hbefore hafter
  rw [Bytes.ofChars_append, Bytes.ofChars_cons, hsplit, hplace, h, Bytes.ofChars_append,
    Bytes.ofChars_cons, hsplit, List.append_assoc _ _ (ofChars _)]

theorem around_inside_inner {c : Char} (hc : isInner c = true) (front back : List Char) {j : Nat}
    (hpos : 0 < j) (hj : j < (utf8Char c).length) :
    around (ofChars (front ++ c :: back)) ((ofChars front).length + j : Nat) =
      between front (c :: back) := by
  rw [around_inside front c back hpos hj, between, List.takeWhile_cons_of_pos hc]

/-! ## The place that is looked at and the cursor -/

theorem rdropWhile_append (h : ∀ c ∈ back, isInner c = true) :
    (front ++ back).rdropWhile isInner = front.rdropWhile isInner := by
  rw [List.rdropWhile, List.reverse_append,
    List.dropWhile_append_of_pos fun c hc => h c (List.mem_reverse.mp hc)]
  rfl

/-- Two places have the same word if no boundary stands between them, and only then. -/
theorem between_append_iff :
    between front (back ++ rest) = between (front ++ back) rest ↔
      ∀ c ∈ back, isInner c = true := by
  constructor
  · intro h
    have hfinish := congrArg Span.finish h
    simp only [between, List.takeWhile_append] at hfinish
    split at hfinish
    · next hwhole =>
        rw [← (List.takeWhile_prefix isInner).eq_of_length hwhole]
        exact fun c hc => List.mem_takeWhile_imp hc
    · -- What is left out of the characters in between would take no bytes.
      obtain ⟨more, hparts⟩ := List.takeWhile_prefix isInner (l := back)
      conv_rhs at hfinish => rw [← hparts]
      simp only [Bytes.ofChars_append, List.length_append] at hfinish
      have hmore := Bytes.length_le_ofChars more
      rw [List.length_eq_zero_iff.mp (show more.length = 0 by omega), List.append_nil] at hparts
      rw [← hparts]
      exact fun c hc => List.mem_takeWhile_imp hc
  · intro h
    rw [between, between, rdropWhile_append h, List.takeWhile_append_of_pos h, List.append_assoc]

/-- No word reaches back over a boundary. -/
theorem rdropWhile_boundary {c : Char} (h : isInner c = false) (front back : List Char) :
    ∃ more, (front ++ c :: back).rdropWhile isInner = front ++ [c] ++ more := by
  have hkept := List.rdropWhile_concat_neg isInner front c (by simp [h])
  induction back using List.reverseRecOn with
  | nil => exact ⟨[], by rw [hkept, List.append_nil]⟩
  | append_singleton back d ih =>
      rw [← List.cons_append, ← List.append_assoc]
      cases hd : isInner d with
      | true => rwa [List.rdropWhile_concat_pos isInner _ d hd]
      | false =>
          refine ⟨back ++ [d], ?_⟩
          rw [List.rdropWhile_concat_neg isInner _ d (by simp [hd]), List.append_cons]
          simp only [List.append_assoc, List.cons_append, List.nil_append]

/-- The word at a place before the cursor is the word at the cursor, if no boundary ends in between,
and only then. -/
theorem around_eq_between_iff {place : Nat} (hplace : place ≤ (ofChars front).length) :
    around (ofChars (front ++ rest)) (place : Nat) = between front rest ↔
      ∀ before c after, front = before ++ c :: after →
        place < (ofChars (before ++ [c])).length → isBoundary c = false := by
  obtain ⟨passed, ahead, rfl, hpassed, hahead⟩ := Bytes.exists_cut front place
  have hinner : (∀ c ∈ ahead, isBoundary c = false) ↔ ∀ c ∈ ahead, isInner c = true := by
    simp [isInner]
  rw [Bytes.forall_behind_cut hpassed hahead, hinner]
  by_cases hborder : (ofChars passed).length = place
  · rw [← hborder, List.append_assoc, around_border, between_append_iff]
  · cases ahead with
    | nil =>
        rw [List.append_nil] at hplace
        omega
    | cons c ahead =>
        have hend := hahead c ahead rfl
        obtain ⟨j, rfl⟩ := Nat.exists_eq_add_of_le hpassed
        rw [Bytes.ofChars_append, List.length_append, Nat.add_lt_add_iff_left,
          ofChars_singleton] at hend
        have hpos : 0 < j := Nat.pos_of_ne_zero (by omega)
        rw [List.append_assoc, List.cons_append]
        cases hc : isInner c with
        | true =>
            rw [around_inside_inner hc passed _ hpos hend, ← List.cons_append, between_append_iff]
        | false =>
            -- The word reaches over a boundary, at which the word at the cursor ends.
            rw [around_inside passed c _ hpos hend]
            refine iff_of_false (fun h => ?_) (fun h => ?_)
            · obtain ⟨more, hkept⟩ := rdropWhile_boundary hc passed ahead
              have hstart := congrArg Span.start h
              have hparts := length_rdropWhile passed
              simp only [between, hkept, Bytes.ofChars_append, List.length_append,
                ofChars_singleton] at hstart
              omega
            · exact absurd (h c List.mem_cons_self) (by simp [hc])

end Word

namespace Prompt

open Bytes (ofChars)

variable {ε : Type} [Parts ε] {p q : Prompt ε} {s : Word.Span}

/-! ## The word at the cursor -/

theorem hasWord_iff :
    p.HasWord s ↔ s = Word.between (p.text.take p.cursor) (p.text.drop p.cursor) := by
  constructor
  · rintro ⟨before, left, right, after, hfront, hrest, hinner, hbefore, hafter, rfl⟩
    have hleft : ∀ c ∈ left, Word.isInner c = true := fun c hc => by
      simp [Word.isInner, hinner c (List.mem_append_left _ hc)]
    have hright : ∀ c ∈ right, Word.isInner c = true := fun c hc => by
      simp [Word.isInner, hinner c (List.mem_append_right _ hc)]
    have hstart : before.rdropWhile Word.isInner = before := by
      rw [List.rdropWhile_eq_self_iff]
      intro hne
      simp [Word.isInner, hbefore _ (List.getLast?_eq_some_getLast hne)]
    have hfinish : after.takeWhile Word.isInner = [] := by
      cases after with
      | nil => rfl
      | cons c after => simp [Word.isInner, hafter c rfl]
    rw [hfront, hrest, Word.between, Word.rdropWhile_append hleft, hstart,
      List.takeWhile_append_of_pos hright, hfinish, List.append_nil]
  · rintro rfl
    refine ⟨(p.text.take p.cursor).rdropWhile Word.isInner,
      (p.text.take p.cursor).rtakeWhile Word.isInner, (p.text.drop p.cursor).takeWhile Word.isInner,
      (p.text.drop p.cursor).dropWhile Word.isInner, List.rdropWhile_append_rtakeWhile.symm,
      List.takeWhile_append_dropWhile.symm, ?_, ?_, ?_, ?_⟩
    · intro c hc
      have hinner : Word.isInner c = true := by
        rcases List.mem_append.mp hc with hc | hc
        · exact List.mem_rtakeWhile_imp hc
        · exact List.mem_takeWhile_imp hc
      simpa [Word.isInner] using hinner
    · intro c hc
      have hne := List.ne_nil_of_mem (List.mem_of_getLast? hc)
      have hlast := List.rdropWhile_last_not Word.isInner _ hne
      rw [List.getLast?_eq_some_getLast hne, Option.some.injEq] at hc
      simpa [hc, Word.isInner] using hlast
    · intro c hc
      have hfirst := List.head?_dropWhile_not Word.isInner (p.text.drop p.cursor)
      simpa [hc, Word.isInner] using hfirst
    · rw [Word.between, List.rdropWhile_append_rtakeWhile]

theorem hasWord_empty_iff (h : p.text = []) : p.HasWord s ↔ s = ⟨0, 0⟩ := by
  rw [hasWord_iff, h]
  simp [Word.between, ofChars]

/-- The word that is found by counting bytes for characters is the word at the cursor if no boundary
tells the two places apart, and only then. -/
theorem hasWord_around_iff [LawfulLineInput ε] (p : Prompt ε) :
    p.HasWord (Word.around p.line p.cursor) ↔ p.CountsAlike := by
  have hbytes : p.line = ofChars (p.text.take p.cursor ++ p.text.drop p.cursor) := by
    rw [List.take_append_drop]
    rfl
  have hinside : p.cursor ≤ p.text.length := LawfulLineInput.cursor_le p.editor
  have hplace : p.cursor ≤ (ofChars (p.text.take p.cursor)).length := by
    have hlength := Bytes.length_le_ofChars (p.text.take p.cursor)
    rwa [List.length_take_of_le hinside] at hlength
  rw [hasWord_iff, hbytes, Word.around_eq_between_iff hplace]
  rfl

theorem countsAlike_of_ascii (h : ∀ b ∈ p.front, b < 0x80) : p.CountsAlike := by
  intro before c after hparts hbehind
  rw [front, hparts, List.append_cons, Bytes.ofChars_append, List.forall_mem_append] at h
  have hlength := congrArg List.length hparts
  rw [List.length_take, List.length_append, List.length_cons] at hlength
  rw [Bytes.length_ofChars_of_ascii h.1, List.length_append, List.length_singleton] at hbehind
  omega

/-! ## Keys -/

/-- The keys that change the line, or move in it, in the state in which they are pressed. -/
def Key.rewrites (p : Prompt ε) : Key → Bool
  | .typed _ | .edit _ | .down | .escape => true
  | .up => 0 < p.place
  | .interrupt => !p.text.isEmpty
  | .enter => p.cycling && !p.found.isEmpty
  | .tab | .backTab | .endOfInput => false

def candidate? (p : Prompt ε) (d : Direction) : Option Fuzzy.Match :=
  p.found[d.next (if p.cycling then p.selected else none) p.found.length]?

/-- What stands before the word, and a text in place of the word. -/
def headWith (p : Prompt ε) (text : Bytes) : Bytes := p.line.take p.word.start ++ text

def Direction.key : Direction → Key
  | .forward => .tab
  | .backward => .backTab

/-! ## Keys that change the line -/

/-- The word is computed anew, by counting bytes for characters. -/
def Recomputed (q : Prompt ε) : Prop :=
  q.cycling = false ∧ q.word = Word.around q.line q.cursor

theorem refresh_recomputed (h : p.cycling = false) (confirm : Bool) :
    ∃ q, p.refresh confirm = some q ∧ q.Recomputed := by
  obtain ⟨q, hq, -⟩ := refresh_sound h confirm
  refine ⟨q, hq, ?_⟩
  unfold refresh at hq
  rw [if_neg (by simp [h])] at hq
  simp only at hq
  split at hq
  · cases hq
  · cases hq
    exact ⟨h, rfl⟩

theorem showEntry_recomputed (h : p.place < p.history.size) :
    ∃ q, p.showEntry = some q ∧ q.Recomputed := by
  obtain ⟨line, hline⟩ := exists_entry h
  simp only [showEntry, hline]
  exact refresh_recomputed rfl _

theorem press_recomputed (hp : p.Consistent) {k : Key} (hk : k.rewrites p = true) :
    ∃ q effects, p.press k = some (q, effects) ∧ q.Recomputed := by
  have hquiet : ∀ r : Option (Prompt ε), (∃ q, r = some q ∧ q.Recomputed) →
      ∃ q effects, quiet r = some (q, effects) ∧ q.Recomputed := by
    rintro r ⟨q, rfl, hq⟩
    exact ⟨q, [], rfl, hq⟩
  cases k with
  | enter =>
      rw [press, if_pos (by simpa [Key.rewrites] using hk)]
      exact hquiet _ (refresh_recomputed rfl _)
  | up =>
      have hpos : 0 < p.place := by simpa [Key.rewrites] using hk
      rw [press, older, if_pos hpos]
      have hentry := Nat.lt_of_lt_of_le (Nat.sub_one_lt_of_lt hpos) hp.place
      exact hquiet _ (showEntry_recomputed hentry)
  | down =>
      rw [press, newer]
      apply hquiet
      split
      · next hlater => exact showEntry_recomputed hlater
      · exact refresh_recomputed rfl _
  | escape =>
      rw [press]
      apply hquiet
      split <;> exact refresh_recomputed rfl _
  | interrupt =>
      rw [press, if_neg (by simpa [Key.rewrites] using hk)]
      exact hquiet _ (refresh_recomputed rfl _)
  | typed cs => exact hquiet _ (refresh_recomputed rfl _)
  | edit command => exact hquiet _ (refresh_recomputed rfl _)
  | tab => cases hk
  | backTab => cases hk
  | endOfInput => cases hk

/-! ## Candidates -/

/-- What the editor holds once a candidate has been put in place of the word. -/
theorem replaceWord_editor {text : Bytes} (h : p.replaceWord text = some q) :
    q.editor = (p.replaced text).editor ∧ p.word.start ≤ p.line.length := by
  simp only [replaceWord] at h
  split at h
  · next hfits =>
      cases h
      exact ⟨rfl, hfits.1⟩
  · cases h

theorem cycle_editor (hp : p.Consistent) {d : Direction} {m : Fuzzy.Match}
    (hm : p.candidate? d = some m) (h : p.cycle d = some q) :
    q.editor = (p.replaced m.text).editor ∧ p.word.start ≤ p.line.length := by
  unfold cycle at h
  split at h
  · next hnil => simp [candidate?, hnil] at hm
  · next sole hsole =>
      obtain ⟨r, hr, rfl⟩ := Option.map_eq_some_iff.mp h
      have hidle : p.cycling = false := by
        by_contra hcycling
        rw [Bool.not_eq_false] at hcycling
        have hseveral := (hp.cycling hcycling).1
        simp [hsole] at hseveral
      have hfirst : d.next none 1 = 0 := by cases d <;> rfl
      have hsame : sole = m := by simpa [candidate?, hsole, hidle, hfirst] using hm
      have hput := replaceWord_editor hr
      rwa [hsame] at hput
  · rw [candidate?] at hm
    simp only [hm] at h
    have hput := replaceWord_editor h
    exact hput

section Lawful

variable [LawfulLineInput ε]

/-- The cursor is behind the candidate exactly if the line holds the candidate whole and either all
up to its end is ASCII or nothing stands behind it. -/
theorem replaced_front_iff (hstart : p.word.start ≤ p.line.length) (text : Bytes) :
    (p.replaced text).front = p.headWith text ↔
      p.headWith text <+: (p.replaced text).line ∧
        ((∀ b ∈ p.headWith text, b < 0x80) ∨ (p.replaced text).line = p.headWith text) := by
  have hlength : p.word.start + text.length = (p.headWith text).length := by
    rw [headWith, List.length_append, List.length_take_of_le hstart]
  have hfront : (p.replaced text).front =
      ofChars ((LineInput.text (p.spliced text)).take (p.word.start + text.length)) := by
    simp only [front, Prompt.text, cursor, replaced, LawfulLineInput.text_moveTo,
      LawfulLineInput.cursor_moveTo, ← List.take_eq_take_min]
  rw [hfront, hlength, replaced_line]
  exact Bytes.ofChars_take_eq_iff

/-! ## Entering a line -/

/-- What is entered leaves an empty line behind, and the word as it was. -/
theorem enterLine_editor (h : Bytes.trim p.line ≠ []) :
    p.enterLine.1.text = [] ∧ p.enterLine.1.word = p.word := by
  have hobey : ∀ (r : Prompt ε) c, (r.obey c).1.text = r.text ∧ (r.obey c).1.word = r.word :=
    fun r c => by cases c <;> exact ⟨rfl, rfl⟩
  have hcleared : LineInput.text (LineInput.setBytes p.editor []) = [] :=
    LineInput.text_setBytes_nil _
  unfold enterLine
  dsimp only
  split
  · next hempty => exact absurd (List.isEmpty_iff.mp hempty) h
  · split
    · rw [(hobey ..).1, (hobey ..).2]
      exact ⟨hcleared, rfl⟩
    · exact ⟨hcleared, rfl⟩

/-! ## The word and the cursor in every state -/

/-- A key that changes the line or moves in it finds the word at the cursor exactly if no boundary
stands between the cursor and the place that is looked at. A line that is entered leaves its word
behind. A candidate has the cursor right behind it exactly if the line holds it whole and either all
up to its end is ASCII or nothing stands behind it. -/
theorem word_follows_cursor_iff {session : Session} {history : History} {events : List Event}
    (h : (start session history : Prompt ε).after events = some p) :
    (∀ k : Key, k.rewrites p = true →
      ∃ q effects, p.handle (.key k) = some (q, effects) ∧ q.cycling = false ∧
        (q.HasWord q.word ↔ q.CountsAlike)) ∧
    (p.cycling = false → Bytes.trim p.line ≠ [] →
      ∃ q effects, p.handle (.key .enter) = some (q, effects) ∧ q.text = [] ∧
        (q.HasWord q.word ↔ p.word = ⟨0, 0⟩)) ∧
    ∀ d m q effects, p.candidate? d = some m → p.handle (.key d.key) = some (q, effects) →
      (q.front = p.headWith m.text ↔
        p.headWith m.text <+: q.line ∧
          ((∀ b ∈ p.headWith m.text, b < 0x80) ∨ q.line = p.headWith m.text)) := by
  have hp := (start_consistent session history).after h
  refine ⟨fun k hk => ?_, fun hidle hline => ?_, fun d m q effects hm hhandle => ?_⟩
  · obtain ⟨q, effects, hpress, hidle, hword⟩ := press_recomputed hp hk
    refine ⟨q, effects, hpress, hidle, ?_⟩
    rw [hword]
    exact q.hasWord_around_iff
  · obtain ⟨hempty, hword⟩ := enterLine_editor hline
    refine ⟨p.enterLine.1, p.enterLine.2, ?_, hempty, ?_⟩
    · rw [handle, press, if_neg (by simp [hidle])]
    · rw [hasWord_empty_iff hempty, hword]
  · have hcycle : p.cycle d = some q := by
      cases d <;> exact quiet_eq_some hhandle
    obtain ⟨heditor, hstart⟩ := cycle_editor hp hm hcycle
    have hiff := replaced_front_iff hstart m.text
    simp only [front, Prompt.text, cursor, line, ← heditor] at hiff
    exact hiff

end Lawful

/-- Two umlauts stand before the candidate and a semicolon behind it: the cursor goes behind the
semicolon. -/
theorem candidate_behind_umlauts :
    let events : List Event := [.key (.typed "größe = pri;".toList), .key (.edit .left)]
    ∃ p : Prompt, (start (.start {} []) { archive := .memory }).after events = some p ∧
      (p.word, p.cycling) = (⟨10, 13⟩, false) ∧
      (∃ q effects, p.handle (.key (.edit .left)) = some (q, effects) ∧ q.cycling = false ∧
        (q.HasWord q.word ↔ q.CountsAlike)) ∧
      (∃ q effects, p.handle (.key .enter) = some (q, effects) ∧ q.text = [] ∧
        (q.HasWord q.word ↔ p.word = ⟨0, 0⟩)) ∧
      ∃ m q effects, m.text = utf8 "print" ∧ p.candidate? .forward = some m ∧
        p.handle (.key .tab) = some (q, effects) ∧
        q.line = utf8 "größe = print;" ∧ q.cursor = 14 ∧ ¬ q.front = p.headWith m.text := by
  intro events
  have hword : ((start (.start {} []) { archive := .memory } : Prompt).after events).map
      (fun p => (p.word, p.cycling, (Bytes.trim p.line).isEmpty)) =
      some (⟨10, 13⟩, false, false) := by
    decide +kernel
  have htab : (((start (.start {} []) { archive := .memory } : Prompt).after events).bind fun p =>
      (p.candidate? .forward).bind fun m => (p.handle (.key .tab)).map fun shown =>
        (m.text, p.headWith m.text, shown.1.line, shown.1.cursor)) =
      some (utf8 "print", utf8 "größe = print", utf8 "größe = print;", 14) := by
    decide +kernel
  obtain ⟨p, hp, hstate⟩ := Option.map_eq_some_iff.mp hword
  simp only [Prod.mk.injEq] at hstate
  obtain ⟨hspan, hidle, hline⟩ := hstate
  obtain ⟨hkeys, henter, hcandidates⟩ := word_follows_cursor_iff hp
  simp only [hp, Option.bind_some, Option.bind_eq_some_iff, Option.map_eq_some_iff,
    Prod.mk.injEq] at htab
  obtain ⟨m, hm, ⟨q, effects⟩, hq, htext, hhead, hbytes, hcursor⟩ := htab
  refine ⟨p, hp, Prod.ext hspan hidle, hkeys _ rfl,
    henter hidle (List.isEmpty_eq_false_iff.mp hline), m, q, effects, htext, hm, hq, hbytes,
    hcursor, ?_⟩
  rw [hcandidates .forward m q effects hm hq, hbytes, hhead]
  rintro ⟨-, hascii | hwhole⟩
  · exact absurd (hascii 0xC3 (List.contains_iff_mem.mp rfl)) (by decide)
  · cases hwhole

/-- Two umlauts stand before the cursor, and the word that is found ends before the word at the
cursor starts. -/
theorem word_before_semicolon :
    ∃ p : Prompt, (start (.start {} []) { archive := .memory }).after
        [.key (.typed "let größe = 1;".toList)] = some p ∧
      p.cycling = false ∧ p.word = ⟨14, 15⟩ ∧ p.HasWord ⟨16, 16⟩ ∧ ¬ p.HasWord p.word := by
  have hshown : ((start (.start {} []) { archive := .memory } : Prompt).after
      [.key (.typed "let größe = 1;".toList)]).map
        (fun p => (p.cycling, p.word, p.text, p.cursor)) =
      some (false, ⟨14, 15⟩, "let größe = 1;".toList, 14) := by
    decide +kernel
  obtain ⟨p, hp, hstate⟩ := Option.map_eq_some_iff.mp hshown
  simp only [Prod.mk.injEq] at hstate
  obtain ⟨hidle, hword, htext, hcursor⟩ := hstate
  refine ⟨p, hp, hidle, hword, ?_, ?_⟩
  · rw [hasWord_iff, htext, hcursor]
    rfl
  · rw [hasWord_iff, htext, hcursor, hword]
    intro hword
    cases congrArg Word.Span.start hword

end Prompt

end Scribe
