import Scribe.Token.Basic

/-!
# Token dump

One line per token: its line number, its category, its spelling, and the value of a literal.
-/

namespace Scribe.Token

def dumpLine (t : Token) : Bytes :=
  let head := Bytes.ofInt t.line ++ [Bytes.space] ++ t.kind.name
  let body :=
    match t.kind with
    | .string =>
        head ++ [Bytes.space] ++ t.lexeme ++ [Bytes.space] ++ t.literal.asText.quoted
    | .number => head ++ [Bytes.space] ++ t.lexeme ++ [Bytes.space] ++ t.literal.display
    | .eof => head
    | _ => head ++ [Bytes.space] ++ t.lexeme
  body ++ [Bytes.lineFeed]

end Scribe.Token
