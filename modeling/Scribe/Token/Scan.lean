import Scribe.Decimal.Read
import Scribe.Diagnostic
import Scribe.Text.Letter
import Scribe.Text.Rune

/-!
# Scanning

A text is read rune by rune. Each step takes one item off the front: a token, something to skip,
or a fault. The items of a text spell the whole text, and the line of an item is the line it
ends on.
-/

namespace Scribe

namespace Scan

/-- A word starts with a letter or an underscore. -/
def startsWord (c : Char) : Bool := isLetter c || c == '_'

def continuesWord (c : Char) : Bool := startsWord c || isDecimalDigit c

def isFeed (r : Rune) : Bool := r.char == '\n'

def feeds (rs : List Rune) : Nat := rs.countP isFeed

inductive Item where
  | token (kind : TokenKind) (literal : Value)
  | skipped
  | fault (cause : LexicalCause)

structure Step where
  item : Item
  taken : List Rune
  rest : List Rune

def single (kind : TokenKind) (r : Rune) (rest : List Rune) : Step :=
  ⟨.token kind .null, [r], rest⟩

/-- One of two operators, by whether `second` follows. -/
def pair (second : Char) (both alone : TokenKind) (r : Rune) : List Rune → Step
  | s :: rest =>
      if s.char == second then ⟨.token both .null, [r, s], rest⟩
      else ⟨.token alone .null, [r], s :: rest⟩
  | [] => ⟨.token alone .null, [r], []⟩

/-- A logical operator, which is written twice. -/
def doubled (kind : TokenKind) (r : Rune) : List Rune → Step
  | s :: rest =>
      if s.char == r.char then ⟨.token kind .null, [r, s], rest⟩
      else ⟨.fault (.notDoubled r.char), [r], s :: rest⟩
  | [] => ⟨.fault (.notDoubled r.char), [r], []⟩

/-- A division, or a comment that ends before the next line feed. -/
def slash (r : Rune) : List Rune → Step
  | s :: rest =>
      if s.char == '/' then
        ⟨.skipped, r :: s :: rest.takeWhile (!isFeed ·), rest.dropWhile (!isFeed ·)⟩
      else ⟨.token .slash .null, [r], s :: rest⟩
  | [] => ⟨.token .slash .null, [r], []⟩

def isQuote (r : Rune) : Bool := r.char == '"'

/-- A string runs to the next quote, over line feeds, without escapes. -/
def string (r : Rune) (rest : List Rune) : Step :=
  let inside := rest.takeWhile (!isQuote ·)
  match rest.dropWhile (!isQuote ·) with
  | close :: after =>
      ⟨.token .string (.string (Bytes.ofRunes inside)), r :: inside ++ [close], after⟩
  | [] => ⟨.fault .unterminatedString, r :: inside, []⟩

def number (r : Rune) (rest : List Rune) : Step :=
  let whole := rest.takeWhile (·.char.isDigit)
  let after := rest.dropWhile (·.char.isDigit)
  let finish (taken rest : List Rune) : Step :=
    ⟨.token .number (.number (Decimal.readPlain (Bytes.ofRunes taken))), taken, rest⟩
  match after with
  | point :: d :: more =>
      if point.char == '.' && d.char.isDigit then
        finish (r :: whole ++ point :: (d :: more).takeWhile (·.char.isDigit))
          ((d :: more).dropWhile (·.char.isDigit))
      else finish (r :: whole) after
  | _ => finish (r :: whole) after

def word (r : Rune) (rest : List Rune) : Step :=
  let taken := r :: rest.takeWhile (continuesWord ·.char)
  ⟨.token (TokenKind.ofWord (Bytes.ofRunes taken)) .null, taken,
    rest.dropWhile (continuesWord ·.char)⟩

/-- One step from the text `r :: rest`. -/
def step (r : Rune) (rest : List Rune) : Step :=
  match r.char with
  | '(' => single .leftParen r rest
  | ')' => single .rightParen r rest
  | '{' => single .leftBrace r rest
  | '}' => single .rightBrace r rest
  | '[' => single .leftBracket r rest
  | ']' => single .rightBracket r rest
  | ',' => single .comma r rest
  | '.' => single .dot r rest
  | '-' => single .minus r rest
  | '+' => single .plus r rest
  | ';' => single .semicolon r rest
  | '*' => single .star r rest
  | '!' => pair '=' .bangEqual .bang r rest
  | '=' => pair '=' .equalEqual .equal r rest
  | '<' => pair '=' .lessEqual .less r rest
  | '>' => pair '=' .greaterEqual .greater r rest
  | '&' => doubled .kwAnd r rest
  | '|' => doubled .kwOr r rest
  | '/' => slash r rest
  | ' ' | '\r' | '\t' | '\n' => ⟨.skipped, [r], rest⟩
  | '"' => string r rest
  | c =>
      if c.isDigit then number r rest
      else if startsWord c then word r rest
      else ⟨.fault (.unexpectedCharacter c), [r], rest⟩

theorem pair_spelling (second : Char) (both alone : TokenKind) (r : Rune) (rest : List Rune) :
    (pair second both alone r rest).taken ++ (pair second both alone r rest).rest = r :: rest := by
  unfold pair
  split
  · split <;> simp
  · rfl

theorem doubled_spelling (kind : TokenKind) (r : Rune) (rest : List Rune) :
    (doubled kind r rest).taken ++ (doubled kind r rest).rest = r :: rest := by
  unfold doubled
  split
  · split <;> simp
  · rfl

theorem slash_spelling (r : Rune) (rest : List Rune) :
    (slash r rest).taken ++ (slash r rest).rest = r :: rest := by
  unfold slash
  split
  · split <;> simp [List.takeWhile_append_dropWhile]
  · rfl

theorem string_spelling (r : Rune) (rest : List Rune) :
    (string r rest).taken ++ (string r rest).rest = r :: rest := by
  have split_at := List.takeWhile_append_dropWhile (p := (!isQuote ·)) (l := rest)
  simp only [string]
  split
  · next close after h => rw [h] at split_at; simp [split_at]
  · next h => rw [h] at split_at; simpa using split_at

theorem number_spelling (r : Rune) (rest : List Rune) :
    (number r rest).taken ++ (number r rest).rest = r :: rest := by
  have split_at := List.takeWhile_append_dropWhile (p := (·.char.isDigit)) (l := rest)
  simp only [number]
  split
  · next point d more h =>
    rw [h] at split_at
    split
    · simp only [List.cons_append, List.append_assoc, List.takeWhile_append_dropWhile, split_at]
    · simp [h, split_at]
  · simp [split_at]

theorem word_spelling (r : Rune) (rest : List Rune) :
    (word r rest).taken ++ (word r rest).rest = r :: rest := by
  simp [word, List.takeWhile_append_dropWhile]

/-- A step neither loses nor adds a rune. -/
theorem step_spelling (r : Rune) (rest : List Rune) :
    (step r rest).taken ++ (step r rest).rest = r :: rest := by
  unfold step
  split <;>
    first
      | rfl
      | exact pair_spelling ..
      | exact doubled_spelling ..
      | exact slash_spelling ..
      | exact string_spelling ..
      | skip
  split
  · exact number_spelling ..
  · split
    · exact word_spelling ..
    · rfl

theorem step_rest_length (r : Rune) (rest : List Rune) :
    (step r rest).rest.length ≤ rest.length := by
  have taken_pos : 0 < (step r rest).taken.length := by
    unfold step
    split <;> (try split) <;> (try split) <;>
      simp [single, pair, doubled, slash, string, number, word] <;>
      (repeat' split) <;> simp
  have spelled := congrArg List.length (step_spelling r rest)
  simp only [List.length_append, List.length_cons] at spelled
  omega

structure Result where
  tokens : List Token
  faults : List Diagnostic

/-- Adds the item of a step that ends on `line`. The lists of `done` stand last first. -/
def Result.add (done : Result) (s : Step) (line : Nat) : Result :=
  match s.item with
  | .token kind literal =>
      { done with
        tokens := { kind, lexeme := Bytes.ofRunes s.taken, literal, line } :: done.tokens }
  | .skipped => done
  | .fault cause => { done with faults := Diagnostic.lexical line cause :: done.faults }

/-- The items of a text whose first rune stands on `line`, behind those of `done`. -/
def run (done : Result) (line : Nat) : List Rune → Result
  | [] => ⟨(Token.endOfText line :: done.tokens).reverse, done.faults.reverse⟩
  | r :: rest =>
      let s := step r rest
      run (done.add s (line + feeds s.taken)) (line + feeds s.taken) s.rest
termination_by rs => rs.length
decreasing_by exact Nat.lt_succ_of_le (step_rest_length r rest)

end Scan

/-- The tokens of a text, with the mark of its end, and its lexical diagnostics. -/
def scan (source : Bytes) : Scan.Result := Scan.run ⟨[], []⟩ 1 source.runes

end Scribe
