import Scribe.Value.Display

/-!
# Source literals

Script text that evaluates to a value. A string that holds a double quote has none, nor has a
number that is not finite, nor an array with such an element.
-/

namespace Scribe.Value

mutual

def literal? : Value → Option Bytes
  | .null => some (utf8 "nil")
  | .boolean b => some (ofBool b)
  | .number f => if f.isNaN || f.isInf then none else some (Layout.plain.number f)
  | .string text =>
      if text.contains Bytes.quote then none else some ([Bytes.quote] ++ text ++ [Bytes.quote])
  | .array vs => (literals? vs).map fun texts => [0x5B] ++ Bytes.join (utf8 ", ") texts ++ [0x5D]

def literals? : List Value → Option (List Bytes)
  | [] => some []
  | v :: vs =>
      match literal? v, literals? vs with
      | some text, some texts => some (text :: texts)
      | _, _ => none

end

/-- A value as it would be written in a script where that is possible, and its text otherwise. -/
def shown (v : Value) : Bytes := (literal? v).getD (display v)

end Scribe.Value
