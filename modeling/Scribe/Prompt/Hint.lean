import Scribe.Scope
import Scribe.Terminal.Display
import Scribe.Value.Literal

/-!
# Hints

Short views of values next to the prompt.
-/

namespace Scribe

namespace Hint

/-- A text cut to a number of characters; the cut is marked where there is room. -/
def ellipsize (text : Bytes) (width : Int) : Bytes :=
  let cs := text.chars
  if cs.length ≤ width then text
  else if width ≤ 3 then Bytes.ofChars (cs.take width.toNat)
  else Bytes.ofChars (cs.take (width - 3).toNat) ++ utf8 "..."

def ofBinding (b : Bindings) (name : Bytes) (width : Int) (d : Display := .ansi) : Bytes :=
  match b.get? name with
  | none => []
  | some v =>
      if width ≤ 0 then []
      else
        let head := d.render .label name ++
          d.render .hint (utf8 ": " ++ utf8 v.kind.name ++ utf8 " = ")
        let text :=
          match v with
          | .string s => [Bytes.quote] ++ s ++ [Bytes.quote]
          | v => v.display
        let room := width - d.cellsOf head
        if room ≤ 0 then head else head ++ d.render .result (ellipsize text room)

def ofBindings (b : Bindings) (width : Int) (d : Display := .ansi) : Bytes :=
  if b.entries.isEmpty then d.render .hint (utf8 "  (no variables)")
  else
    Bytes.join [Bytes.lineFeed] (b.entries.map fun (name, v) =>
      utf8 "  " ++ name ++ utf8 " " ++
        d.render .hint (ellipsize v.shown (max (width - name.length - 4) 8)))

end Hint

end Scribe
