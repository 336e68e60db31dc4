import Scribe.Failure

/-!
# File systems

What a program sees of files: what stands at a path, which file the path leads to, and what this
file holds. A file may be reached by several paths; its key tells it from every other file.
-/

namespace Scribe

inductive Found where
  | directory
  | file
  deriving DecidableEq

structure FileSystem (κ : Type) where
  look : Bytes → Option Found
  /-- The key of the file that a path leads to when its links are followed one by one, or why they
  cannot be. That a file stands at the path does not mean that they can: `/dev/fd/3` may stand for
  a pipe, which no path without links leads to. -/
  resolve : Bytes → Except Failure κ
  /-- The text of the file that a path leads to, or why it cannot be read. -/
  read : Bytes → Except Failure Bytes

namespace FileSystem

variable {κ : Type}

def isFile (fs : FileSystem κ) (path : Bytes) : Bool := fs.look path = some .file

def isDirectory (fs : FileSystem κ) (path : Bytes) : Bool := fs.look path = some .directory

def empty : FileSystem κ :=
  { look := fun _ => none
    resolve := fun _ => .error (.plain (utf8 "no such file or directory"))
    read := fun _ => .error (.plain (utf8 "no such file or directory")) }

end FileSystem

end Scribe
