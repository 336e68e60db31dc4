import Scribe.Text.Bytes

/-!
# Paths

Names of files, with parts between slashes. Nothing here looks at a file: a path is normalized
by its text alone.
-/

namespace Scribe

namespace Path

def slash : UInt8 := 0x2F

def here : Bytes := utf8 "."

def up : Bytes := utf8 ".."

def isAbsolute (path : Bytes) : Bool := path.head? = some slash

def parts (path : Bytes) : List Bytes := Bytes.splitOn slash path

/-- Adds a part to those before it, which stand last first. A step up removes the part before it;
above the root there is nothing, and above a relative start steps up are kept. -/
def push (absolute : Bool) (done : List Bytes) (part : Bytes) : List Bytes :=
  if part.isEmpty || part = here then done
  else if part = up then
    match done with
    | [] => if absolute then [] else [up]
    | last :: rest => if last = up then up :: done else rest
  else part :: done

def clean (path : Bytes) : Bytes :=
  let absolute := isAbsolute path
  let kept := ((parts path).foldl (push absolute) []).reverse
  let text := Bytes.join [slash] kept
  if absolute then slash :: text else if text.isEmpty then here else text

def join (directory name : Bytes) : Bytes :=
  if directory.isEmpty then (if name.isEmpty then [] else clean name)
  else clean (directory ++ [slash] ++ name)

def absolute (workingDirectory path : Bytes) : Bytes :=
  if isAbsolute path then clean path else join workingDirectory path

/-- A path given on the command line: one that starts with a tilde lies in the home directory,
another one that does not start at the root lies in the working directory. -/
def expand (workingDirectory home path : Bytes) : Bytes :=
  if isAbsolute path then path
  else
    match Bytes.dropStart? path (utf8 "~/") with
    | some rest => join home rest
    | none => absolute workingDirectory path

end Path

end Scribe
