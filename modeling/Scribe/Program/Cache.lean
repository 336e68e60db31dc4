import Scribe.Program

/-!
# Program cache

Programs made before, kept under a key that is computed from text and limit. Keys may collide:
a program found is used only if it is the program of the same text and limit.
-/

namespace Scribe

structure Hashing (κ : Type) where
  key : Bytes → Nat → κ
  shown : κ → Bytes

namespace Hashing

/-- Bytes folded into 64 bits by exclusive or and multiplication, starting from the limit. -/
def folded : Hashing UInt64 where
  key source limit :=
    source.foldl (fun h b => (h ^^^ b.toUInt64) * 0x100000001b3)
      (0xcbf29ce484222325 ^^^ limit.toUInt64)
  shown key := utf8 (String.ofList (Nat.toDigits 16 key.toNat))

end Hashing

/-- A cache: one program per key. -/
abbrev Cache (κ : Type) := List (κ × Program)

namespace Cache

variable {κ : Type} [BEq κ]

structure Found (κ : Type) where
  program : Program
  cache : Cache κ
  events : List LogEvent

def lookupEvent (shown : Bytes) (hit : Bool) : LogEvent :=
  { level := .trace
    message := utf8 "cache lookup"
    attrs := [(utf8 "source_hash", .text shown), (utf8 "cache_hit", .boolean hit)] }

def collisionEvent (shown : Bytes) : LogEvent :=
  { level := .debug
    message := utf8 "cache collision"
    attrs := [(utf8 "source_hash", .text shown)] }

def isFor (p : Program) (source : Bytes) (limit : Nat) : Bool :=
  p.source == source && p.limit == limit

/-- The program of a text: the one kept under its key, or a new one, which is then kept. A
program that another text left under the same key is not used. -/
def compile (h : Hashing κ) (cache : Cache κ) (source : Bytes) (limit : Nat) : Found κ :=
  let key := h.key source limit
  match cache.lookup key with
  | none =>
      let p := Program.ofSource source limit
      { program := p
        cache := (key, p) :: cache
        events := p.events ++ [lookupEvent (h.shown key) false] }
  | some kept =>
      if isFor kept source limit then
        { program := kept, cache, events := [lookupEvent (h.shown key) true] }
      else
        let p := Program.ofSource source limit
        { program := p
          cache
          events := [lookupEvent (h.shown key) true, collisionEvent (h.shown key)] ++ p.events }

end Cache

end Scribe
