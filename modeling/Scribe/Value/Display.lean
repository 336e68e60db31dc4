import Scribe.Decimal.Layout
import Scribe.Text.Quoted
import Scribe.Value.Basic

/-!
# The text of a value

What `print` writes. A string stands for itself at the top and is quoted inside an array.
-/

namespace Scribe.Value

def ofBool (b : Bool) : Bytes := utf8 (if b then "true" else "false")

mutual

/-- The text of a value, followed by `tail`. -/
def displayOnto : Value → (tail : Bytes) → Bytes
  | .null, tail => utf8 "nil" ++ tail
  | .boolean b, tail => ofBool b ++ tail
  | .number f, tail => Layout.plain.number f ++ tail
  | .string text, tail => text ++ tail
  | .array [], tail => utf8 "[]" ++ tail
  | .array (v :: vs), tail => 0x5B :: elementOnto v (elementsOnto vs (0x5D :: tail))

def elementOnto : Value → (tail : Bytes) → Bytes
  | .string text, tail => text.quoted ++ tail
  | .null, tail => utf8 "nil" ++ tail
  | .boolean b, tail => ofBool b ++ tail
  | .number f, tail => Layout.plain.number f ++ tail
  | .array [], tail => utf8 "[]" ++ tail
  | .array (v :: vs), tail => 0x5B :: elementOnto v (elementsOnto vs (0x5D :: tail))

def elementsOnto : List Value → (tail : Bytes) → Bytes
  | [], tail => tail
  | v :: vs, tail => utf8 ", " ++ elementOnto v (elementsOnto vs tail)

end

def display (v : Value) : Bytes := displayOnto v []

end Scribe.Value
