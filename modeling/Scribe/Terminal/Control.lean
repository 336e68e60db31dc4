import Scribe.Text.Bytes

/-!
# Control sequences

A terminal takes some bytes for orders to itself: single controls, and sequences that start with
an escape. It reads byte by byte, and what a byte means depends on the sequence it stands in.
-/

namespace Scribe

/-- Where a terminal stands between two bytes. -/
inductive ControlMode where
  /-- Outside of all sequences. -/
  | ground
  /-- Behind an escape, and behind further marks of its sequence. -/
  | escape
  | escapeMarks
  /-- Among the parameters of a control sequence, and behind further marks of it. -/
  | parameters
  | parameterMarks
  /-- At the start of a device string, among its parameters, behind further marks, inside it. -/
  | deviceStart
  | deviceParameters
  | deviceMarks
  | deviceString
  /-- Inside a command to the system around the terminal. -/
  | systemCommand
  /-- Inside a string for an application. -/
  | applicationString
  deriving DecidableEq, Repr

namespace ControlMode

inductive Response where
  /-- It is a character of ASCII. -/
  | printed
  /-- It starts a character of several bytes. -/
  | lead
  | enters (mode : ControlMode)
  deriving DecidableEq, Repr

def isLead (b : UInt8) : Bool := 0xC2 ≤ b && b ≤ 0xF4

/-- Controls of ASCII that stand inside a sequence without ending it. -/
def isPassing (b : UInt8) : Bool := b < 0x20 || b = 0x7F

def isMark (b : UInt8) : Bool := 0x20 ≤ b && b ≤ 0x2F

def isParameter (b : UInt8) : Bool := 0x30 ≤ b && b ≤ 0x3F

/-- Ends any sequence: cancel, substitute. -/
def isCancel (b : UInt8) : Bool := b = 0x18 || b = 0x1A

/-- A byte of 128 or more, outside of the strings that take such bytes in. -/
def high (b : UInt8) : Response :=
  if isLead b then .lead
  else if b = 0x90 then .enters .deviceStart
  else if b = 0x9B then .enters .parameters
  else if b = 0x9D then .enters .systemCommand
  else if b = 0x98 || b = 0x9E || b = 0x9F then .enters .applicationString
  else .enters .ground

def behindEscape (b : UInt8) : ControlMode :=
  if isPassing b then .escape
  else if isMark b then .escapeMarks
  else if b = 0x50 then .deviceStart
  else if b = 0x5B then .parameters
  else if b = 0x5D then .systemCommand
  else if b = 0x58 || b = 0x5E || b = 0x5F then .applicationString
  else .ground

/-- A byte of ASCII that neither starts a sequence nor cancels one. -/
def low (mode : ControlMode) (b : UInt8) : ControlMode :=
  match mode with
  | .ground => .ground
  | .escape => behindEscape b
  | .escapeMarks => if isPassing b || isMark b then .escapeMarks else .ground
  | .parameters =>
      if isPassing b || isParameter b then .parameters
      else if isMark b then .parameterMarks
      else .ground
  | .parameterMarks => if isPassing b || isMark b then .parameterMarks else .ground
  | .deviceStart =>
      if 0x08 ≤ b && b ≤ 0x0D then .deviceString
      else if isPassing b then .deviceStart
      else if isMark b then .deviceMarks
      else if isParameter b then .deviceParameters
      else .deviceString
  | .deviceParameters =>
      if isPassing b || isParameter b then .deviceParameters
      else if isMark b then .deviceMarks
      else .deviceString
  | .deviceMarks => if isPassing b || isMark b then .deviceMarks else .deviceString
  | .deviceString => .deviceString
  | .systemCommand => if b = 0x07 then .ground else .systemCommand
  | .applicationString => .applicationString

def read (mode : ControlMode) (b : UInt8) : Response :=
  if isCancel b then .enters .ground
  else if b = 0x1B then .enters (if mode = .deviceStart then .deviceString else .escape)
  else if 0x80 ≤ b then
    if mode = .deviceString || mode = .systemCommand then
      .enters (if b = 0x9C then .ground else mode)
    else high b
  else if mode = .ground && !isPassing b then .printed
  else .enters (mode.low b)

end ControlMode

end Scribe
