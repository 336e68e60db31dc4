import Scribe.Text.Printable
import Scribe.Text.Rune

/-!
# Quoted text

A quoted text stands between double quotes. Printable characters stand for themselves; a
control character, a character that does not print and a malformed byte are written as escapes,
so a quoted text is one line of printable characters.
-/

namespace Scribe

namespace Quoted

def letter? (c : Char) : Option UInt8 :=
  match c.toNat with
  | 7 => some 0x61
  | 8 => some 0x62
  | 9 => some 0x74
  | 10 => some 0x6E
  | 11 => some 0x76
  | 12 => some 0x66
  | 13 => some 0x72
  | 34 => some 0x22
  | 92 => some 0x5C
  | _ => none

def rune (r : Rune) : Bytes :=
  if r.isMalformed then utf8 "\\x" ++ r.bytes.flatMap fun b => Bytes.hex b.toNat 2
  else
    match letter? r.char with
    | some c => [0x5C, c]
    | none =>
        if isPrintable r.char then r.bytes
        else if r.char.toNat < 0x80 then utf8 "\\x" ++ Bytes.hex r.char.toNat 2
        else if r.char.toNat < 0x10000 then utf8 "\\u" ++ Bytes.hex r.char.toNat 4
        else utf8 "\\U" ++ Bytes.hex r.char.toNat 8

end Quoted

/-- A text between double quotes, with escapes. -/
def Bytes.quoted (text : Bytes) : Bytes :=
  [Bytes.quote] ++ text.runes.flatMap Quoted.rune ++ [Bytes.quote]

end Scribe
