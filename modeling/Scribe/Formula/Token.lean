import Scribe.Text.Letter
import Scribe.Text.Space

/-!
# Tokens of formulas
-/

namespace Scribe

namespace Formula

inductive Token where
  | number (text : Bytes)
  | text (s : Bytes)
  | name (n : Bytes)
  /-- Signs, and the words that stand between operands. -/
  | sign (text : String)
  | opening (bracket : Char)
  | closing (bracket : Char)
  deriving DecidableEq

namespace Token

def isNameChar (c : Char) : Bool := c == '_' || c == '$' || isLetter c || isDecimalDigit c

/-- Words that are no names. -/
def words : List String :=
  ["not", "in", "or", "and", "matches", "contains", "startsWith", "endsWith", "let", "if", "else"]

def ofWord (cs : List Char) : Token :=
  match words.find? (·.toList == cs) with
  | some word => .sign word
  | none => .name (Bytes.ofChars cs)

/-! ## Numbers -/

def isDigitOf (base : Nat) (c : Char) : Bool :=
  c == '_' || (Bytes.digitValue? c.toNat.toUInt8).any (c.toNat < 128 && · < base)

def splitBase : List Char → List Char × Nat × List Char
  | '0' :: c :: rest =>
      if c == 'x' || c == 'X' then (['0', c], 16, rest)
      else if c == 'o' || c == 'O' then (['0', c], 8, rest)
      else if c == 'b' || c == 'B' then (['0', c], 2, rest)
      else ([], 10, '0' :: c :: rest)
  | cs => ([], 10, cs)

/-- A point and the digits behind it; two points are no part of a number. -/
def splitFraction (base : Nat) : List Char → List Char × List Char
  | '.' :: '.' :: rest => ([], '.' :: '.' :: rest)
  | '.' :: rest => ('.' :: rest.takeWhile (isDigitOf base), rest.dropWhile (isDigitOf base))
  | cs => ([], cs)

def splitExponent (base : Nat) : List Char → List Char × List Char
  | e :: rest =>
      if e == 'e' || e == 'E' then
        let (signed, digits) :=
          match rest with
          | s :: more => if s == '+' || s == '-' then ([s], more) else ([], rest)
          | [] => ([], [])
        (e :: signed ++ digits.takeWhile (isDigitOf base), digits.dropWhile (isDigitOf base))
      else ([], e :: rest)
  | [] => ([], [])

/-- A number at the start of a text. No letter and no digit may follow it. -/
def number? (cs : List Char) : Option (Token × List Char) :=
  let (mark, base, cs) := splitBase cs
  let whole := cs.takeWhile (isDigitOf base)
  let (fraction, cs) := splitFraction base (cs.dropWhile (isDigitOf base))
  let (exponent, cs) := splitExponent base cs
  if cs.head?.any isNameChar then none
  else some (.number (Bytes.ofChars (mark ++ whole ++ fraction ++ exponent)), cs)

/-! ## Texts -/

def hexValue? (cs : List Char) : Option Nat :=
  cs.foldlM (fun n c =>
    if c.toNat < 128 then (Bytes.digitValue? c.toNat.toUInt8).map (n * 16 + ·) else none) 0

/-- The bytes of a character number of 32 bits. Half of a surrogate pair reads as U+FFFD, and of a
number whose highest bit is set only the lowest byte is left. -/
def ofCode? (n : Nat) : Option Bytes :=
  if n.isValidChar then some (utf8Char (Char.ofNat n))
  else if n < 0xE000 then some (utf8Char Rune.replacement)
  else if n < 0x80000000 then none
  else some [n.toUInt8]

def coded? (width : Nat) (cs : List Char) : Option (Bytes × List Char) :=
  let digits := cs.take width
  if digits.length < width then none
  else ((hexValue? digits).bind ofCode?).map fun bytes => (bytes, cs.drop width)

def octal? : List Char → Option (Bytes × List Char)
  | a :: b :: c :: rest =>
      if [a, b, c].all fun d => '0' ≤ d && d ≤ '7' then
        let n := ((a.toNat - 48) * 8 + (b.toNat - 48)) * 8 + (c.toNat - 48)
        if n < 256 then some (utf8Char (Char.ofNat n), rest) else none
      else none
  | _ => none

def escape? (quote : Char) : List Char → Option (Bytes × List Char)
  | [] => none
  | c :: rest =>
      match c with
      | 'a' => some ([0x07], rest)
      | 'b' => some ([0x08], rest)
      | 'f' => some ([0x0C], rest)
      | 'n' => some ([0x0A], rest)
      | 'r' => some ([0x0D], rest)
      | 't' => some ([0x09], rest)
      | 'v' => some ([0x0B], rest)
      | '\\' => some ([0x5C], rest)
      | 'x' => coded? 2 rest
      | 'u' => coded? 4 rest
      | 'U' => coded? 8 rest
      | c => if c = quote then some (utf8Char c, rest) else octal? (c :: rest)

/-- The rest of a text behind its opening quote, in which a carriage return reads as a line feed.
`done` holds its pieces, last first. -/
def text? (quote : Char) :
    (fuel : Nat) → (done : List Bytes) → List Char → Option (Token × List Char)
  | 0, _, _ => none
  | _ + 1, _, [] => none
  | fuel + 1, done, c :: rest =>
      if c = quote then some (.text done.reverse.flatten, rest)
      else if c = '\n' then none
      else if c = '\\' then
        match escape? quote rest with
        | some (piece, rest) => text? quote fuel (piece :: done) rest
        | none => none
      else text? quote fuel (utf8Char (if c = '\r' then '\n' else c) :: done) rest

/-- The rest of a text between back quotes. Nothing in it is an escape, but a doubled back quote
stands for one. -/
def rawText? (done : List Char) : List Char → Option (Token × List Char)
  | '\x60' :: '\x60' :: rest => rawText? ('\x60' :: done) rest
  | '\x60' :: rest => some (.text (Bytes.ofChars done.reverse), rest)
  | c :: rest => rawText? (c :: done) rest
  | [] => none

/-! ## Signs -/

/-- A sign at the start of a text. Some signs may be doubled or have an equals sign behind
them. -/
def sign? : List Char → Option (Token × List Char)
  | [] => none
  | c :: rest =>
      let pair (second : Char → Bool) : Option (Token × List Char) :=
        match rest with
        | d :: more =>
            if second d then some (.sign (String.ofList [c, d]), more)
            else some (.sign (String.singleton c), rest)
        | [] => some (.sign (String.singleton c), [])
      if c == '|' then pair (· == '|')
      else if c == ':' then pair (· == ':')
      else if c == '?' then pair (fun d => d == '?' || d == '.')
      else if c == '.' then pair (· == '.')
      else if [',', ';', '%', '+', '-', '^', '/'].contains c then
        some (.sign (String.singleton c), rest)
      else if ['&', '!', '=', '*', '<', '>'].contains c then
        pair fun d => d == '&' || d == '=' || d == '*'
      else none

def closeComment? : List Char → Option (List Char)
  | '*' :: '/' :: rest => some rest
  | _ :: rest => closeComment? rest
  | [] => none

/-- Whether a text starts with a comment, and what stands behind its mark. A comment of one
line is closed by the end of the line. -/
inductive CommentStart where
  | line (rest : List Char)
  | block (rest : List Char)
  | other

def CommentStart.of : List Char → CommentStart
  | '/' :: '/' :: rest => .line rest
  | '/' :: '*' :: rest => .block rest
  | _ => .other

def next? (cs : List Char) : Option (Token × List Char) :=
  match cs with
  | [] => none
  | c :: rest =>
      if c = '\'' || c = '"' then text? c (rest.length + 1) [] rest
      else if c = '\x60' then rawText? [] rest
      else if '0' ≤ c && c ≤ '9' then number? cs
      else if c = '.' && rest.head?.any (fun d => '0' ≤ d && d ≤ '9') then number? cs
      else if ['(', '[', '\x7b'].contains c then some (.opening c, rest)
      else if [')', ']', '\x7d'].contains c then some (.closing c, rest)
      else if isNameChar c then
        some (ofWord (cs.takeWhile isNameChar), cs.dropWhile isNameChar)
      else sign? cs

def all? : (fuel : Nat) → (done : List Token) → List Char → Option (List Token)
  | 0, _, _ => none
  | _ + 1, done, [] => some done.reverse
  | fuel + 1, done, c :: rest =>
      if isSpace c then all? fuel done rest
      else
        match CommentStart.of (c :: rest) with
        | .line rest => all? fuel done (rest.dropWhile (· ≠ '\n'))
        | .block rest => (closeComment? rest).bind (all? fuel done)
        | .other =>
            match next? (c :: rest) with
            | some (t, rest) => all? fuel (t :: done) rest
            | none => none

def scan? (source : Bytes) : Option (List Token) :=
  let cs := source.chars
  all? (cs.length + 1) [] cs

end Token

end Formula

end Scribe
