import Scribe.Text.Rune

/-!
# White space

Trimming and splitting at white space, which here includes the Unicode spaces.
-/

namespace Scribe

def isSpace (c : Char) : Bool :=
  c == '\t' || c == '\n' || c == '\x0B' || c == '\x0C' || c == '\r' || c == ' '
    || c == '\u0085' || c == '\u00A0' || c == '\u1680'
    || (0x2000 ≤ c.toNat && c.toNat ≤ 0x200A)
    || c == '\u2028' || c == '\u2029' || c == '\u202F' || c == '\u205F' || c == '\u3000'

namespace Bytes

def trimRunes (rs : List Rune) : List Rune :=
  ((rs.dropWhile (isSpace ·.char)).reverse.dropWhile (isSpace ·.char)).reverse

def trim (text : Bytes) : Bytes := ofRunes (trimRunes text.runes)

def isBlank (text : Bytes) : Bool := text.runes.all (isSpace ·.char)

/-- Words of a list of runes; `word` holds the runes of the current one, last first. -/
def wordsFrom (word : List Rune) : List Rune → List Bytes
  | [] => if word.isEmpty then [] else [ofRunes word.reverse]
  | r :: rest =>
      if isSpace r.char then
        if word.isEmpty then wordsFrom [] rest else ofRunes word.reverse :: wordsFrom [] rest
      else wordsFrom (r :: word) rest

/-- The runs of characters between white space. -/
def words (text : Bytes) : List Bytes := wordsFrom [] text.runes

end Bytes

end Scribe
