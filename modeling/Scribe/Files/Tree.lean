import Scribe.Files.Path
import Scribe.Files.System

/-!
# File trees

Files, directories and symbolic links as a tree. A place in the tree is the list of names that
lead to it, innermost first. Looking up a path follows links, and a path that goes on behind a
file leads nowhere.
-/

namespace Scribe

inductive Entry where
  | file (content : Bytes)
  | directory
  | link (target : Bytes)
  deriving DecidableEq

structure FileTree where
  entries : List (List Bytes × Entry)
  /-- The place from which relative paths start. -/
  origin : List Bytes

namespace FileTree

/-- Links that are followed for one path. -/
def linkLimit : Nat := 40

/-- What stands at a place. The directories above an entry need not be listed. -/
def entry? (t : FileTree) (place : List Bytes) : Option Entry :=
  match t.entries.lookup place with
  | some e => some e
  | none =>
      if place.isEmpty || place.isSuffixOf t.origin ||
          t.entries.any (fun (p, _) => place.isSuffixOf p) then
        some .directory
      else none

/-- Follows the parts of a path from a place that is no link. -/
def walk (t : FileTree) (links : Nat) (place : List Bytes) (parts : List Bytes) :
    Option (List Bytes × Entry) :=
  match parts with
  | [] => (t.entry? place).map (place, ·)
  | part :: rest =>
      if t.entry? place ≠ some .directory then none
      else if part.isEmpty || part = Path.here then t.walk links place rest
      else if part = Path.up then t.walk links place.tail rest
      else
        match t.entry? (part :: place) with
        | none => none
        | some (.link target) =>
            match links with
            | 0 => none
            | links + 1 =>
                t.walk links (if Path.isAbsolute target then [] else place)
                  (Path.parts target ++ rest)
        | some _ => t.walk links (part :: place) rest
termination_by (links, parts.length)

def find? (t : FileTree) (path : Bytes) : Option (List Bytes × Entry) :=
  if path.isEmpty then none
  else t.walk linkLimit (if Path.isAbsolute path then [] else t.origin) (Path.parts path)

def missing : Failure := .plain (utf8 "no such file or directory")

/-- The tree as a file system; a file's key is its place. -/
def toFileSystem (t : FileTree) : FileSystem (List Bytes) where
  look path :=
    match t.find? path with
    | some (_, .directory) => some .directory
    | some (_, .file _) => some .file
    | _ => none
  resolve path :=
    match t.find? path with
    | some (place, _) => .ok place
    | none => .error missing
  read path :=
    match t.find? path with
    | some (_, .file content) => .ok content
    | _ => .error missing

def placeOf (start : List Bytes) (path : Bytes) : List Bytes :=
  (Path.parts path).foldl (Path.push true) (if Path.isAbsolute path then [] else start)

/-- A tree of entries given by their paths, with the working directory as its origin. -/
def ofList (workingDirectory : Bytes) (entries : List (Bytes × Entry)) : FileTree :=
  let origin := placeOf [] workingDirectory
  { entries := entries.map fun (path, e) => (placeOf origin path, e), origin }

end FileTree

end Scribe
