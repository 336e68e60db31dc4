import Scribe.Failure
import Scribe.Text.Space

/-!
# What a log attribute shows

Before a record is written every attribute is resolved: a failure with attributes of its own
becomes a group, and what remains are groups of leaves.
-/

namespace Scribe

/-- A value of a record that is not a group. -/
inductive Leaf where
  | null
  | text (s : Bytes)
  | int (n : Int)
  | uint (n : Nat)
  | float (f : Float)
  | boolean (b : Bool)
  | duration (d : Duration)
  | time (t : Instant)
  | texts (items : List Bytes)
  /-- The wording of a failure. -/
  | failure (s : Bytes)

namespace Leaf

def typeName : Leaf → String
  | .null | .texts _ | .failure _ => "Any"
  | .text _ => "String"
  | .int _ => "Int64"
  | .uint _ => "Uint64"
  | .float _ => "Float64"
  | .boolean _ => "Bool"
  | .duration _ => "Duration"
  | .time _ => "Time"

def display : Leaf → Bytes
  | .null => utf8 "<nil>"
  | .text s => s
  | .int n => Bytes.ofInt n
  | .uint n => Bytes.ofNat n
  | .float f => Layout.general.number f
  | .boolean b => Value.ofBool b
  | .duration d => d.text
  | .time t => t.longText
  | .texts items => [0x5B] ++ Bytes.join [Bytes.space] items ++ [0x5D]
  | .failure s => s

end Leaf

inductive Shown where
  | leaf (l : Leaf)
  | group (members : List (Bytes × Shown))

namespace Shown

def text (s : Bytes) : Shown := .leaf (.text s)

mutual

/-- One text for a resolved value; the members of a group stand between brackets. -/
def display : Shown → Bytes
  | .leaf l => l.display
  | .group members => [0x5B] ++ Bytes.join [Bytes.space] (displayAll members) ++ [0x5D]

def displayAll : List (Bytes × Shown) → List Bytes
  | [] => []
  | (key, s) :: rest => (key ++ [0x3D] ++ display s) :: displayAll rest

end

def isEmptyGroup : Shown → Bool
  | .group [] => true
  | _ => false

end Shown

def Field.isGroup : Field → Bool
  | .group _ => true
  | _ => false

def Diagnostic.members (d : Diagnostic) : List (Bytes × Shown) :=
  [(utf8 "phase", .text (utf8 d.phase.name)), (utf8 "line", .leaf (.int d.line)),
    (utf8 "message", .text d.message)] ++
    if d.place.isEmpty then [] else [(utf8 "where", .text (Bytes.trim d.place))]

def messageMember (message : Bytes) : List (Bytes × Shown) :=
  if message.isEmpty then [] else [(utf8 "error", .text message)]

mutual

def Field.shown : Field → Shown
  | .null => .leaf .null
  | .text s => .leaf (.text s)
  | .int n => .leaf (.int n)
  | .uint n => .leaf (.uint n)
  | .float f => .leaf (.float f)
  | .boolean b => .leaf (.boolean b)
  | .duration d => .leaf (.duration d)
  | .time t => .leaf (.time t)
  | .texts items => .leaf (.texts items)
  | .failure e => e.shown
  | .group attrs => .group (Field.allShown attrs)

/-- A failure of the script family shows its cause as text only, one of the command family shows
the cause itself. -/
def Failure.shown : Failure → Shown
  | .plain s => .leaf (.failure s)
  | .context s cause => .leaf (.failure (Failure.context s cause).text)
  | .coded _ message none attrs => .group (messageMember message ++ Field.allShown attrs)
  | .coded .script message (some cause) attrs =>
      .group (messageMember message ++ [(utf8 "cause", .text cause.text)] ++ Field.allShown attrs)
  | .coded .command message (some cause) attrs =>
      .group (messageMember message ++ [(utf8 "cause", cause.shown)] ++ Field.allShown attrs)
  | .diagnostic d => .group d.members
  | .diagnostics ds => .leaf (.failure (Diagnostic.textAll ds))

/-- Attributes in order. A group that has no members is left out. -/
def Field.allShown : List (Bytes × Field) → List (Bytes × Shown)
  | [] => []
  | (key, f) :: rest =>
      if f.isGroup && f.shown.isEmptyGroup then Field.allShown rest
      else (key, f.shown) :: Field.allShown rest

end

end Scribe
