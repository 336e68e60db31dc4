import Scribe.Text.Bytes

/-!
# Reading a text character by character

A text splits into runes: well-formed UTF-8 sequences, and single bytes that start none. A
malformed byte reads as U+FFFD but keeps its own spelling, so joining the runes of a text gives
the text back.
-/

namespace Scribe

/-- A character together with the bytes that spell it. -/
structure Rune where
  char : Char
  bytes : Bytes
  deriving DecidableEq

namespace Rune

def replacement : Char := '\uFFFD'

def malformed (b : UInt8) : Rune := ⟨replacement, [b]⟩

def isMalformed (r : Rune) : Bool := r.char == replacement && r.bytes.length == 1

def ofChar (c : Char) : Rune := ⟨c, utf8Char c⟩

def isContinuation (b : UInt8) : Bool := 0x80 ≤ b && b ≤ 0xBF

/-- The second bytes that may follow a lead byte: the shortest form only, no surrogates, nothing
beyond U+10FFFF. -/
def mayFollow (lead second : UInt8) : Bool :=
  if lead = 0xE0 then 0xA0 ≤ second && second ≤ 0xBF
  else if lead = 0xED then 0x80 ≤ second && second ≤ 0x9F
  else if lead = 0xF0 then 0x90 ≤ second && second ≤ 0xBF
  else if lead = 0xF4 then 0x80 ≤ second && second ≤ 0x8F
  else isContinuation second

/-- Number of bytes of the sequence that a byte of 128 or more starts, if it starts one. -/
def sequenceLength? (lead : UInt8) : Option Nat :=
  if 0xC2 ≤ lead && lead ≤ 0xDF then some 2
  else if 0xE0 ≤ lead && lead ≤ 0xEF then some 3
  else if 0xF0 ≤ lead && lead ≤ 0xF4 then some 4
  else none

def tailBits (b : UInt8) : Nat := b.toNat % 64

/-- The first rune of the text `b :: rest` and what follows it. -/
def first (b : UInt8) (rest : Bytes) : Rune × Bytes :=
  if b < 0x80 then (⟨Char.ofNat b.toNat, [b]⟩, rest)
  else
    match sequenceLength? b, rest with
    | some 2, c :: rest' =>
        if mayFollow b c then
          (⟨Char.ofNat (b.toNat % 32 * 64 + tailBits c), [b, c]⟩, rest')
        else (malformed b, rest)
    | some 3, c :: d :: rest' =>
        if mayFollow b c && isContinuation d then
          (⟨Char.ofNat ((b.toNat % 16 * 64 + tailBits c) * 64 + tailBits d), [b, c, d]⟩, rest')
        else (malformed b, rest)
    | some 4, c :: d :: e :: rest' =>
        if mayFollow b c && isContinuation d && isContinuation e then
          (⟨Char.ofNat (((b.toNat % 8 * 64 + tailBits c) * 64 + tailBits d) * 64 + tailBits e),
            [b, c, d, e]⟩, rest')
        else (malformed b, rest)
    | _, _ => (malformed b, rest)

theorem first_spelling (b : UInt8) (rest : Bytes) :
    (first b rest).1.bytes ++ (first b rest).2 = b :: rest := by
  unfold first
  split
  · rfl
  · split <;> (try split) <;> simp_all [malformed]

theorem first_bytes_ne_nil (b : UInt8) (rest : Bytes) : (first b rest).1.bytes ≠ [] := by
  unfold first
  split
  · simp
  · split <;> (try split) <;> simp [malformed]

theorem first_rest_length (b : UInt8) (rest : Bytes) :
    (first b rest).2.length < (b :: rest).length := by
  have spelled := congrArg List.length (first_spelling b rest)
  have nonempty := List.length_pos_iff.mpr (first_bytes_ne_nil b rest)
  simp only [List.length_append] at spelled
  omega

end Rune

namespace Bytes

/-- The runes of a text behind those in `done`, which stand last first. -/
def runesOnto (done : List Rune) : Bytes → List Rune
  | [] => done.reverse
  | b :: rest => runesOnto ((Rune.first b rest).1 :: done) (Rune.first b rest).2
termination_by text => text.length
decreasing_by exact Rune.first_rest_length b rest

def runes (text : Bytes) : List Rune := runesOnto [] text

theorem runesOnto_eq (done : List Rune) (text : Bytes) :
    runesOnto done text = done.reverse ++ text.runes := by
  suffices h : ∀ (n : Nat) (text : Bytes), text.length ≤ n → ∀ done,
      runesOnto done text = done.reverse ++ runesOnto [] text from
    h text.length text (Nat.le_refl _) done
  intro n
  induction n with
  | zero =>
    intro text hn done
    rw [List.length_eq_zero_iff.mp (Nat.le_zero.mp hn)]
    simp [runesOnto]
  | succ n ih =>
    intro text hn done
    cases text with
    | nil => simp [runesOnto]
    | cons b rest =>
      have shorter : (Rune.first b rest).2.length ≤ n := by
        have := Rune.first_rest_length b rest
        omega
      rw [runesOnto, ih _ shorter, runesOnto, ih _ shorter [_]]
      simp

@[simp] theorem runes_nil : runes [] = [] := by simp [runes, runesOnto]

theorem runes_cons (b : UInt8) (rest : Bytes) :
    runes (b :: rest) = (Rune.first b rest).1 :: runes (Rune.first b rest).2 := by
  rw [runes, runesOnto, runesOnto_eq]
  rfl

def ofRunes (runes : List Rune) : Bytes := runes.flatMap Rune.bytes

@[simp] theorem ofRunes_nil : ofRunes [] = [] := rfl

@[simp] theorem ofRunes_cons (r : Rune) (rs : List Rune) :
    ofRunes (r :: rs) = r.bytes ++ ofRunes rs := rfl

@[simp] theorem ofRunes_append (rs ss : List Rune) :
    ofRunes (rs ++ ss) = ofRunes rs ++ ofRunes ss := by
  simp [ofRunes]

theorem ofRunes_runes (text : Bytes) : ofRunes text.runes = text := by
  induction h : text.length using Nat.strongRecOn generalizing text with
  | ind n ih =>
    cases text with
    | nil => simp
    | cons b rest =>
      rw [runes_cons, ofRunes_cons, ih _ (h ▸ Rune.first_rest_length b rest) _ rfl,
        Rune.first_spelling]

/-- The characters a text reads as. -/
def chars (text : Bytes) : List Char := text.runes.map Rune.char

def ofChars (chars : List Char) : Bytes := chars.flatMap utf8Char

def isValid (text : Bytes) : Bool := text.runes.all fun r => !r.isMalformed

end Bytes

end Scribe
