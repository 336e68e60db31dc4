/-!
# Byte strings

Script text, lexemes, string values and everything that is written are byte strings. A text need
not be valid UTF-8, and no operation changes a byte it does not name.
-/

namespace Scribe

abbrev Bytes := List UInt8

def utf8 (s : String) : Bytes := s.toUTF8.data.toList

def utf8Char (c : Char) : Bytes := String.utf8EncodeChar c

namespace Bytes

/-- The string a text is the UTF-8 form of, if it is one. -/
def toString? (text : Bytes) : Option String := String.fromUTF8? ⟨text.toArray⟩

def quote : UInt8 := 0x22
def lineFeed : UInt8 := 0x0A
def space : UInt8 := 0x20

def join (separator : Bytes) (texts : List Bytes) : Bytes := separator.intercalate texts

def startsWith (text start : Bytes) : Bool := start.isPrefixOf text

def endsWith (text tail : Bytes) : Bool := tail.reverse.isPrefixOf text.reverse

def dropStart? : Bytes → Bytes → Option Bytes
  | text, [] => some text
  | [], _ :: _ => none
  | b :: text, s :: start => if b = s then dropStart? text start else none

/-- What stands before `tail` in a text that ends with it, or the whole text. -/
def dropTail (text tail : Bytes) : Bytes :=
  match dropStart? text.reverse tail.reverse with
  | some rest => rest.reverse
  | none => text

def cut? (mark : UInt8) (text : Bytes) : Option (Bytes × Bytes) :=
  match text.dropWhile (· ≠ mark) with
  | [] => none
  | _ :: after => some (text.takeWhile (· ≠ mark), after)

theorem cut?_after_length {mark : UInt8} {text before after : Bytes}
    (h : cut? mark text = some (before, after)) : after.length < text.length := by
  have shorter := (List.dropWhile_sublist (l := text) (· ≠ mark)).length_le
  simp only [cut?] at h
  split at h
  · simp at h
  · next found =>
    rw [found] at shorter
    simp only [Option.some.injEq, Prod.mk.injEq] at h
    exact h.2 ▸ shorter

/-- The pieces between the occurrences of `mark`; one piece more than there are marks. -/
def splitOn (mark : UInt8) (text : Bytes) : List Bytes :=
  match found : cut? mark text with
  | none => [text]
  | some (piece, after) =>
      have := cut?_after_length found
      piece :: splitOn mark after
termination_by text.length

def replace (old new : UInt8) (text : Bytes) : Bytes :=
  text.map fun b => if b = old then new else b

def containsText (text part : Bytes) : Bool :=
  match text with
  | [] => part.isEmpty
  | b :: rest => part.isPrefixOf (b :: rest) || containsText rest part

/-- Letters of ASCII in lower case. -/
def lower (text : Bytes) : Bytes :=
  text.map fun b => if 0x41 ≤ b && b ≤ 0x5A then b + 0x20 else b

/-- Letters of ASCII in upper case. -/
def upper (text : Bytes) : Bytes :=
  text.map fun b => if 0x61 ≤ b && b ≤ 0x7A then b - 0x20 else b

def ofNat (n : Nat) : Bytes := utf8 (Nat.repr n)

def ofInt (i : Int) : Bytes :=
  match i with
  | .ofNat n => ofNat n
  | .negSucc n => 0x2D :: ofNat (n + 1)

def isDigit (b : UInt8) : Bool := 0x30 ≤ b && b ≤ 0x39

def digitValue? (b : UInt8) : Option Nat :=
  if 0x30 ≤ b && b ≤ 0x39 then some (b.toNat - 0x30)
  else if 0x61 ≤ b && b ≤ 0x66 then some (b.toNat - 0x61 + 10)
  else if 0x41 ≤ b && b ≤ 0x46 then some (b.toNat - 0x41 + 10)
  else none

def hexDigit (n : Nat) : UInt8 := if n < 10 then (0x30 + n).toUInt8 else (0x61 + n - 10).toUInt8

/-- The last `width` hexadecimal digits of a number. -/
def hex (n : Nat) : (width : Nat) → Bytes
  | 0 => []
  | width + 1 => hex (n / 16) width ++ [hexDigit (n % 16)]

def repeated (count : Nat) (text : Bytes) : Bytes := (List.replicate count text).flatten

def spaces (count : Nat) : Bytes := List.replicate count space

end Bytes

end Scribe
