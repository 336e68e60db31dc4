import Scribe.Text.Bytes

/-!
# Values

What an expression evaluates to: null, a boolean, a number, a string of bytes, or an array.
-/

namespace Scribe

inductive Value where
  | null
  | boolean (b : Bool)
  | number (f : Float)
  | string (text : Bytes)
  | array (elems : List Value)
  deriving Inhabited

namespace Value

inductive Kind where
  | null
  | boolean
  | number
  | string
  | array
  deriving DecidableEq, Repr

namespace Kind

def name : Kind → String
  | .null => "Null"
  | .boolean => "Boolean"
  | .number => "Number"
  | .string => "String"
  | .array => "Array"

def ofCode? : Int → Option Kind
  | 0 => some .null
  | 1 => some .boolean
  | 2 => some .number
  | 3 => some .string
  | 4 => some .array
  | _ => none

/-- The name of a numbered kind, also of a number that names none. -/
def nameOfCode (code : Int) : String := ((ofCode? code).map name).getD "Unknown"

end Kind

def kind : Value → Kind
  | .null => .null
  | .boolean _ => .boolean
  | .number _ => .number
  | .string _ => .string
  | .array _ => .array

/-- Null is false, a boolean is itself, everything else is true. -/
def truthy : Value → Bool
  | .null => false
  | .boolean b => b
  | _ => true

def isNull : Value → Bool
  | .null => true
  | _ => false

def asBool : Value → Bool
  | .boolean b => b
  | _ => false

def asFloat : Value → Float
  | .number f => f
  | _ => 0

def asText : Value → Bytes
  | .string text => text
  | _ => []

def elems : Value → List Value
  | .array vs => vs
  | _ => []

mutual

/-- Equality of scripts. Numbers compare as numbers, so not-a-number differs from itself and the
two zeros are equal; values of different kinds are never equal. -/
def equal : Value → Value → Bool
  | .null, .null => true
  | .boolean a, .boolean b => a == b
  | .number a, .number b => a == b
  | .string a, .string b => a == b
  | .array as, .array bs => equalAll as bs
  | _, _ => false

def equalAll : List Value → List Value → Bool
  | [], [] => true
  | a :: as, b :: bs => equal a b && equalAll as bs
  | _, _ => false

end

end Value

end Scribe
