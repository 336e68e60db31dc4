import Scribe.Formula.Basic

/-!
# Types of formulas

A formula is refused before it is evaluated if its types cannot fit, also where evaluation would
never come. What is only known at evaluation fits everything.
-/

namespace Scribe

namespace Formula

inductive Nature where
  | unknown
  | nothing
  | boolean
  | integer
  | real
  | text
  | list (element : Nature)
  | record
  | function
  deriving DecidableEq

namespace Nature

/-- The nature of a datum that has a name. Nothing is known of the elements of a list. -/
def ofDatum : Datum → Nature
  | .nothing => .nothing
  | .boolean _ => .boolean
  | .integer _ => .integer
  | .real _ => .real
  | .text _ => .text
  | .list _ => .list .unknown
  | .record _ => .record
  | .environment => .function

def isNumber : Nature → Bool
  | .integer | .real => true
  | _ => false

/-- Whether two natures are of one kind; lists are, whatever their elements. -/
def sameKind : Nature → Nature → Bool
  | .list _, .list _ => true
  | m, n => m == n

/-- Whether both natures pass a test, or one does and nothing is known of the other, or nothing
is known of either. -/
def fits (test : Nature → Bool) (m n : Nature) : Bool :=
  match m, n with
  | .unknown, .unknown => true
  | .unknown, n => test n
  | m, .unknown => test m
  | m, n => test m && test n

def isKnown (m n : Nature) : Bool := m ≠ .unknown && n ≠ .unknown

def comparable (m n : Nature) : Bool :=
  !isKnown m n || sameKind m n || m = .nothing || n = .nothing || (m.isNumber && n.isNumber)

def combined (m n : Nature) : Nature :=
  if !isKnown m n then .unknown else if m = .integer && n = .integer then .integer else .real

def either (m n : Nature) : Nature :=
  if m = .nothing then n
  else if n = .nothing then m
  else if sameKind m n then m
  else .unknown

def unary (op : Unary) (n : Nature) : Option Nature :=
  match op with
  | .not => if n = .boolean || n = .unknown then some .boolean else none
  | .minus | .plus => if n.isNumber || n = .unknown then some n else none

def binary (op : Binary) (m n : Nature) : Option Nature :=
  match op with
  | .equal | .differ => if comparable m n then some .boolean else none
  | .or | .and => if fits (· = .boolean) m n then some .boolean else none
  | .less | .greater | .atMost | .atLeast =>
      if fits isNumber m n || fits (· = .text) m n then some .boolean else none
  | .add =>
      if fits isNumber m n then some (combined m n)
      else if fits (· = .text) m n then some (if isKnown m n then .text else .unknown)
      else none
  | .subtract | .multiply => if fits isNumber m n then some (combined m n) else none
  | .divide | .power => if fits isNumber m n then some .real else none
  | .modulo => if fits (· = .integer) m n then some .integer else none

def element (base place : Nature) : Option Nature :=
  match base with
  | .unknown => some .unknown
  | .list e => if place = .integer || place = .unknown then some e else none
  | .record => if place = .text || place = .unknown then some .unknown else none
  | _ => none

def isBound (n : Nature) : Bool := n = .integer || n = .unknown

def part (base : Nature) (bounds : List Nature) : Option Nature :=
  match base with
  | .unknown | .list _ | .text => if bounds.all isBound then some base else none
  | _ => none

/-- The nature of a list with elements of the given natures: if they are of one kind, that of
the last one is known of all. -/
def ofElements (ns : List Nature) : Nature :=
  match ns.getLast? with
  | none => .list .unknown
  | some n => .list (if ns.all (sameKind n) then n else .unknown)

end Nature

abbrev Context := List (Bytes × Nature)

/-- The function that counts elements, fields or characters. -/
def lengthName : Bytes := utf8 "len"

/-- The names of all functions. One that is not called has nothing as its value, and none can be
bound within a formula. -/
def functionNames : List Bytes :=
  ["all", "none", "any", "one", "filter", "map", "find", "findIndex", "findLast", "findLastIndex",
    "count", "sum", "groupBy", "sortBy", "reduce", "len", "type", "abs", "ceil", "floor", "round",
    "int", "float", "string", "trim", "trimPrefix", "trimSuffix", "upper", "lower", "split",
    "splitAfter", "replace", "repeat", "join", "indexOf", "lastIndexOf", "hasPrefix", "hasSuffix",
    "max", "min", "mean", "median", "toJSON", "fromJSON", "toBase64", "fromBase64", "now",
    "duration", "date", "timezone", "first", "last", "get", "take", "keys", "values", "toPairs",
    "fromPairs", "reverse", "uniq", "concat", "flatten", "sort", "bitand", "bitor", "bitxor",
    "bitnand", "bitnot", "bitshl", "bitshr", "bitushr"].map utf8

/-- The nature of a call. A bound name hides the function that counts. -/
def callNature (ctx : Context) (function : Bytes) (arguments : List Nature) : Option Nature :=
  match ctx.lookup function, arguments with
  | some .function, [n] => if n = .text || n = .unknown then some .text else none
  | some .unknown, _ => some .unknown
  | some _, _ => none
  | none, [n] =>
      if function = lengthName then
        match n with
        | .list _ | .record | .text | .unknown => some .integer
        | _ => none
      else none
  | none, _ => none

mutual

def nature? (ctx : Context) : Formula → Option Nature
  | .nothing => some .nothing
  | .boolean _ => some .boolean
  | .integer _ => some .integer
  | .real _ => some .real
  | .text _ => some .text
  | .name n =>
      match ctx.lookup n with
      | some t => some t
      | none => if functionNames.contains n then some .function else none
  | .list items => (natures? ctx items).map Nature.ofElements
  | .record fields => (fieldNatures? ctx fields).map fun _ => .record
  | .unary op e => (nature? ctx e).bind (Nature.unary op)
  | .binary op left right =>
      match nature? ctx left, nature? ctx right with
      | some m, some n => Nature.binary op m n
      | _, _ => none
  | .choice condition yes no =>
      match nature? ctx condition, nature? ctx yes, nature? ctx no with
      | some c, some m, some n =>
          if c = .boolean || c = .unknown then some (Nature.either m n) else none
      | _, _, _ => none
  | .element base place =>
      match nature? ctx base, nature? ctx place with
      | some m, some n => Nature.element m n
      | _, _ => none
  | .part base start finish =>
      match nature? ctx base, boundNature? ctx start, boundNature? ctx finish with
      | some m, some s, some f => Nature.part m (s ++ f)
      | _, _, _ => none
  | .call function arguments => (natures? ctx arguments).bind (callNature ctx function)
  | .bind n value body =>
      if (ctx.lookup n).isSome || functionNames.contains n then none
      else
        match nature? ctx value with
        | some t => nature? ((n, t) :: ctx) body
        | none => none
  | .sequence first second =>
      match nature? ctx first with
      | some _ => nature? ctx second
      | none => none

def boundNature? (ctx : Context) : Option Formula → Option (List Nature)
  | none => some []
  | some e => (nature? ctx e).map ([·])

def natures? (ctx : Context) : List Formula → Option (List Nature)
  | [] => some []
  | e :: es =>
      match nature? ctx e, natures? ctx es with
      | some n, some ns => some (n :: ns)
      | _, _ => none

def fieldNatures? (ctx : Context) : List (Formula × Formula) → Option Unit
  | [] => some ()
  | (k, v) :: rest =>
      match nature? ctx k, nature? ctx v with
      | some _, some _ => fieldNatures? ctx rest
      | _, _ => none

end

end Formula

end Scribe
