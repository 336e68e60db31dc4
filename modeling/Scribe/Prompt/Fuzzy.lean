import Scribe.Text.Case
import Scribe.Text.Rune

/-!
# Fuzzy matching

A pattern matches a candidate that holds its characters in order, without regard to case. The
score prefers hits at the start of the candidate, at the start of a part of it, and next to each
other.
-/

namespace Scribe

namespace Fuzzy

structure Match where
  text : Bytes
  /-- Place of the candidate in its list. -/
  index : Nat
  /-- Byte offsets of the hits. -/
  hits : List Nat
  score : Int
  deriving DecidableEq

def sameFold (c d : Char) : Bool := foldCase c == foldCase d

def isSeparator (c : Char) : Bool :=
  c == '/' || c == '-' || c == '_' || c == ' ' || c == '.' || c == '\\'

structure Search where
  /-- Characters still to be found, the current one first. -/
  wanted : List Char
  /-- Offsets found, last first. -/
  hits : List Nat := []
  score : Int := 0
  /-- The best place for the current character so far, with its score. -/
  best : Option (Int × Nat) := none
  /-- Grows while hits stand next to each other. -/
  streak : Int := 0
  /-- The character before, and its offset. -/
  last : Option (Char × Nat) := none

namespace Search

/-- What a hit at `offset` is worth. The second part is the share of hits that stand next to each
other. -/
def worth (s : Search) (offset : Nat) (c : Char) : Int × Int :=
  let first := if offset = 0 then 10 else 0
  let camel := if s.last.any (fun (l, _) => isLowerCase l) && isUpperCase c then 20 else 0
  let part := if offset ≠ 0 && s.last.any (fun (l, _) => isSeparator l) then 20 else 0
  let adjacent :=
    match s.hits with
    | [] => 0
    | hit :: _ => if s.last.any (fun (_, o) => o = hit) then s.streak * 2 + 5 else 0
  (first + camel + part + adjacent, adjacent)

def weigh (s : Search) (offset : Nat) (c : Char) : Search :=
  match s.wanted with
  | [] => s
  | p :: _ =>
      if sameFold c p then
        let (score, adjacent) := s.worth offset c
        let s := { s with streak := s.streak + adjacent }
        if s.best.all (fun (b, _) => b < score) then { s with best := some (score, offset) } else s
      else s

/-- Whether the best place is settled: the next character is the next one sought, or there is
none. -/
def isSettled (s : Search) (next : Option Char) : Bool :=
  match next with
  | none => true
  | some n => sameFold n (s.wanted.tail.headD '\x00') || n == '\x00'

/-- Takes the best place. The first hit costs something for each byte before it. -/
def settle (s : Search) : Search :=
  match s.best with
  | none => s
  | some (score, offset) =>
      let late : Int := if s.hits.isEmpty then max (-5 * offset) (-15) else 0
      { s with
        wanted := s.wanted.tail
        hits := offset :: s.hits
        score := s.score + score + late
        best := none }

def step (s : Search) (offset : Nat) (c : Char) (next : Option Char) : Search :=
  let s := s.weigh offset c
  let s := if s.isSettled next then s.settle else s
  { s with last := some (c, offset) }

def walk (s : Search) (offset : Nat) : List Rune → Search
  | [] => s
  | r :: rest =>
      walk (s.step offset r.char (rest.head?.map Rune.char)) (offset + r.bytes.length) rest

end Search

def match? (pattern : List Char) (index : Nat) (candidate : Bytes) : Option Match :=
  let s := Search.walk { wanted := pattern } 0 candidate.runes
  if s.hits.length = pattern.length then
    some
      { text := candidate, index, hits := s.hits.reverse
        score := s.score + s.hits.length - candidate.length }
  else none

/-- Puts a match before those that do not score higher. -/
def insert (m : Match) : List Match → List Match
  | [] => [m]
  | n :: rest => if n.score ≤ m.score then m :: n :: rest else n :: insert m rest

/-- Best match first; of equal matches the later candidate comes first. -/
def sort (ms : List Match) : List Match := ms.foldl (fun sorted m => insert m sorted) []

/-- The candidates that a pattern matches, best first. An empty pattern matches none. -/
def find (pattern : Bytes) (candidates : List Bytes) : List Match :=
  if pattern.isEmpty then []
  else sort (candidates.zipIdx.filterMap fun (c, i) => match? pattern.chars i c)

end Fuzzy

end Scribe
