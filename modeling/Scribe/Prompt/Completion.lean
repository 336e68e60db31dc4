import Scribe.Prompt.Fuzzy
import Scribe.Prompt.Word
import Scribe.Scope
import Scribe.Terminal.Display
import Scribe.Token.Basic

/-!
# Completion

The candidates for the word at the cursor, and the line that shows those that match.
-/

namespace Scribe

namespace Completion

/-- The commands of the prompt. Each is also known by its first letter. -/
def commands : List Bytes :=
  [":help", ":vars", ":edit", ":reset", ":clear", ":quit"].map utf8

def keywordNames : List Bytes := TokenKind.keywords.map Prod.fst

/-- The candidates for a word that starts at `start`: commands for the first word of a line when
it starts with a colon; nothing inside a string; else keywords and bound names. -/
def candidates (b : Bindings) (text : Bytes) (start : Nat) : List Bytes :=
  if Bytes.startsWith (text.drop start) (utf8 ":") then
    if Bytes.isBlank (text.take start) then commands else []
  else if inString text start then []
  else keywordNames ++ b.names.filter fun name => !keywordNames.contains name

def separator : Bytes := Bytes.spaces 2

section

variable (d : Display)

def rendered (m : Fuzzy.Match) (selected : Bool) : Bytes :=
  let step := fun ((offset, done) : Nat × List Bytes) (r : Rune) =>
    let style := Style.candidate selected (m.hits.contains offset)
    (offset + r.bytes.length, d.render style (utf8Char r.char) :: done)
  (m.text.runes.foldl step (0, [])).2.reverse.flatten

def ellipsis : Bytes := d.render .hint (utf8 "...")

/-- The candidates after the first, as long as there is room for an ellipsis behind each. `used`
counts the cells so far, `index` the candidates. -/
def barFrom (selected : Option Nat) (width : Int) (used index : Nat) : List Fuzzy.Match → Bytes
  | [] => []
  | m :: rest =>
      let text := rendered d m (selected = some index)
      let cells := d.cellsOf text + d.cellsOf separator
      if width < used + cells + d.cellsOf (ellipsis d) then separator ++ ellipsis d
      else separator ++ text ++ barFrom selected width (used + cells) (index + 1) rest

end

/-- One line of candidates, cut to a width. The first is always shown. -/
def bar (found : List Fuzzy.Match) (selected : Option Nat) (width : Int) (d : Display := .ansi) :
    Bytes :=
  match found with
  | [] => []
  | m :: rest =>
      if width ≤ 0 then []
      else
        let text := rendered d m (selected = some 0)
        text ++ barFrom d selected width (d.cellsOf text) 1 rest

end Completion

end Scribe
