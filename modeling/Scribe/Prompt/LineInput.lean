import Scribe.Text.Rune

/-!
# Line input

What a prompt asks of the editor of its line, and what it relies on.
-/

namespace Scribe

namespace LineInput

inductive Command where
  | left
  | right
  | wordLeft
  | wordRight
  | start
  | finish
  | deleteBack
  | deleteForward
  | deleteWord
  | deleteNextWord
  | deleteToEnd
  | deleteToStart
  | nothing
  deriving DecidableEq, Repr

def capacity : Nat := 1024

def isControl (c : Char) : Bool := c.toNat < 0x20 || (0x7F ≤ c.toNat && c.toNat ≤ 0x9F)

def isPlain (c : Char) : Bool := !(c == Rune.replacement || isControl c)

end LineInput

/-- An editor of one line of text, with a cursor between its characters. -/
class LineInput (ε : Type) where
  blank : ε
  text : ε → List Char
  /-- Number of characters before the cursor. -/
  cursor : ε → Nat
  /-- Puts a text in place of the line. -/
  setBytes : ε → Bytes → ε
  moveTo : ε → Nat → ε
  /-- Characters that arrive at once. -/
  press : ε → List Char → ε
  apply : ε → LineInput.Command → ε

namespace LineInput

variable {ε : Type} [LineInput ε]

def bytes (e : ε) : Bytes := Bytes.ofChars (text e)

end LineInput

/-- A line input that stores what it is given, within its limits, and counts characters. -/
class LawfulLineInput (ε : Type) [LineInput ε] : Prop where
  isPlain_of_mem (e : ε) : ∀ c ∈ LineInput.text e, LineInput.isPlain c = true
  length_text_le (e : ε) : (LineInput.text e).length ≤ LineInput.capacity
  cursor_le (e : ε) : LineInput.cursor e ≤ (LineInput.text e).length
  text_setBytes (e : ε) {cs : List Char} (h : ∀ c ∈ cs, LineInput.isPlain c = true) :
    LineInput.text (LineInput.setBytes e (Bytes.ofChars cs)) = cs.take LineInput.capacity
  text_moveTo (e : ε) (n : Nat) : LineInput.text (LineInput.moveTo e n) = LineInput.text e
  cursor_moveTo (e : ε) (n : Nat) :
    LineInput.cursor (LineInput.moveTo e n) = min n (LineInput.text e).length

namespace LineInput

variable {ε : Type} [LineInput ε] [LawfulLineInput ε]

theorem text_setBytes_nil (e : ε) : text (setBytes e []) = [] :=
  LawfulLineInput.text_setBytes e (List.forall_mem_nil _)

theorem bytes_moveTo (e : ε) (n : Nat) : bytes (moveTo e n) = bytes e :=
  congrArg Bytes.ofChars (LawfulLineInput.text_moveTo e n)

end LineInput

end Scribe
