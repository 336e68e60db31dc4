import Scribe.Value.Basic

/-!
# Host data

Values exchanged with the program that embeds the interpreter. Every value has a host form; host
data of a type that scripts do not know has no value.
-/

namespace Scribe

inductive Host where
  | nothing
  | value (v : Value)
  | boolean (b : Bool)
  | text (s : Bytes)
  | real (f : Float)
  | single (f : Float32)
  | signed (n : Int64)
  | unsigned (n : UInt64)
  | list (items : List Host)
  | unsupported (typeName : Bytes)
  deriving Inhabited

namespace Value

mutual

/-- The value of host data, or the name of the first type that has none. -/
def ofHost : Host → Except Bytes Value
  | .nothing => .ok .null
  | .value v => .ok v
  | .boolean b => .ok (.boolean b)
  | .text s => .ok (.string s)
  | .real f => .ok (.number f)
  | .single f => .ok (.number f.toFloat)
  | .signed n => .ok (.number n.toFloat)
  | .unsigned n => .ok (.number n.toFloat)
  | .list items =>
      match ofHostList items with
      | .ok vs => .ok (.array vs)
      | .error typeName => .error typeName
  | .unsupported typeName => .error typeName

def ofHostList : List Host → Except Bytes (List Value)
  | [] => .ok []
  | item :: items =>
      match ofHost item with
      | .error typeName => .error typeName
      | .ok v =>
          match ofHostList items with
          | .error typeName => .error typeName
          | .ok vs => .ok (v :: vs)

end

mutual

def toHost : Value → Host
  | .null => .nothing
  | .boolean b => .boolean b
  | .number f => .real f
  | .string text => .text text
  | .array vs => .list (toHostList vs)

def toHostList : List Value → List Host
  | [] => []
  | v :: vs => toHost v :: toHostList vs

end

end Value

end Scribe
