import Scribe.Text.Space

/-!
# The word at the cursor

A word is a run of characters that are neither white space nor punctuation of the language. A
colon belongs to a word, so that a command is one word.
-/

namespace Scribe

namespace Word

def punctuation : List Char := "()[]\x7b\x7d,.;+-*/<>=!&|\"".toList

def isBoundary (c : Char) : Bool := isSpace c || punctuation.contains c

structure Span where
  start : Nat
  finish : Nat
  deriving DecidableEq, Repr

/-- The part of a text that a span covers, if it lies within the text. -/
def Span.slice? (s : Span) (text : Bytes) : Option Bytes :=
  if s.start ≤ s.finish ∧ s.finish ≤ text.length then
    some ((text.take s.finish).drop s.start)
  else none

/-- The bytes of the runes at the front that are no boundaries. -/
def leading (rs : List Rune) : Bytes := Bytes.ofRunes (rs.takeWhile (!isBoundary ·.char))

/-- The bytes of the runes at the end that are no boundaries. -/
def trailing (rs : List Rune) : Bytes :=
  Bytes.ofRunes (rs.reverse.takeWhile (!isBoundary ·.char)).reverse

def clamp (text : Bytes) (cursor : Int) : Nat := min cursor.toNat text.length

/-- The word that touches the cursor, which is a byte offset. -/
def around (text : Bytes) (cursor : Int) : Span :=
  let place := clamp text cursor
  { start := place - (trailing (Bytes.runes (text.take place))).length
    finish := place + (leading (Bytes.runes (text.drop place))).length }

end Word

/-- Whether an odd number of quotes stands before an offset. -/
def inString (text : Bytes) (offset : Nat) : Bool := (text.take offset).count Bytes.quote % 2 == 1

end Scribe
