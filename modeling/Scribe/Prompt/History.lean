import Scribe.Failure
import Scribe.Text.Space

/-!
# History

Lines entered before, oldest first. A line entered again moves to the end. The history may be
kept in a file, one entry per line.
-/

namespace Scribe

inductive Archive where
  | memory
  /-- A file with its content, if it exists. -/
  | file (content : Option Bytes)
  /-- A file that cannot be opened. `absent` tells that it is because it does not exist. -/
  | closed (reason : Bytes) (absent : Bool)

structure History where
  archive : Archive
  entries : List Bytes := []

namespace History

def lineLimit : Nat := 65535

/-- The entries of a list of lines, up to the first that is too long; tells whether there was
one. -/
def readLines : List Bytes → List Bytes × Bool
  | [] => ([], false)
  | line :: rest =>
      if lineLimit < line.length then ([], true)
      else
        let (entries, tooLong) := readLines rest
        let entry := Bytes.trim line
        (if entry.isEmpty then entries else entry :: entries, tooLong)

/-- Reads the entries of the file. A file that does not exist is no failure and changes
nothing. -/
def load (h : History) : History × Option Failure :=
  match h.archive with
  | .memory | .file none => (h, none)
  | .closed reason absent => (h, if absent then none else some (.plain reason))
  | .file (some content) =>
      let (entries, tooLong) := readLines (Bytes.splitOn Bytes.lineFeed content)
      ({ h with entries },
        if tooLong then some (.plain (utf8 "bufio.Scanner: token too long")) else none)

def fileText (entries : List Bytes) : Bytes := entries.flatMap (· ++ [Bytes.lineFeed])

/-- What entering a line gives: the history, the number of bytes kept, and a failure if the file
cannot be written. -/
structure Written where
  history : History
  bytes : Nat
  failure : Option Failure := none

/-- Enters a line. White space around it is dropped, and a blank line is not kept. The file is
appended to, or written anew when an entry has moved. -/
def write (h : History) (line : Bytes) : Written :=
  let entry := Bytes.trim line
  if entry.isEmpty then ⟨h, 0, none⟩
  else if h.entries.getLast? = some entry then ⟨h, entry.length, none⟩
  else
    let moved := h.entries.contains entry
    let entries := h.entries.erase entry ++ [entry]
    match h.archive with
    | .memory => ⟨{ h with entries }, entry.length, none⟩
    | .closed reason _ => ⟨{ h with entries }, 0, some (.plain reason)⟩
    | .file content =>
        let added := entry ++ [Bytes.lineFeed]
        if moved then
          ⟨{ archive := .file (some (fileText entries)), entries }, (fileText entries).length, none⟩
        else ⟨{ archive := .file (some (content.getD [] ++ added)), entries }, added.length, none⟩

/-- An entry by its number; zero is the oldest. -/
def get? (h : History) (i : Int) : Option Bytes := if i < 0 then none else h.entries[i.toNat]?

def size (h : History) : Nat := h.entries.length

end History

end Scribe
