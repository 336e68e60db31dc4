import Scribe.Proofs.Program.Callers

/-!
# Runs of scripts

A script is run with a program that is made for it or that comes from a cache. What it does is the
same.
-/

namespace Scribe

variable {κ : Type} [BEq κ]

/-- The caches that calls leave behind, one after the other; a cleared cache is empty again. -/
inductive Cache.Built (h : Hashing κ) : Cache κ → Prop
  | empty : Built h []
  | compiled {cache : Cache κ} (hcache : Built h cache) (source : Bytes) (limit : Nat) :
      Built h (compile h cache source limit).cache

theorem Cache.Built.sound {h : Hashing κ} {cache : Cache κ} (hcache : cache.Built h) :
    cache.Sound := by
  induction hcache with
  | empty => exact fun entry hentry => absurd hentry List.not_mem_nil
  | compiled _ source limit ih => exact compile_sound h ih source limit

namespace Interpreter

/-- A script runs without a cache, or with any cache that earlier calls have left. -/
inductive Runs (i : Interpreter) (source : Bytes) : Outcome → Prop
  | uncached : Runs i source (i.run source)
  | cached {κ : Type} [BEq κ] (h : Hashing κ) {cache : Cache κ} (hcache : cache.Built h) :
      Runs i source (i.runCached h cache source).1

theorem Runs.eq_run {i : Interpreter} {source : Bytes} {outcome : Outcome}
    (h : i.Runs source outcome) : outcome.interpreter = (i.run source).interpreter ∧
      outcome.diagnostics = (i.run source).diagnostics := by
  cases h with
  | uncached => exact ⟨rfl, rfl⟩
  | cached h hcache => exact Cache.runCached_eq_run h hcache.sound i source

end Interpreter

end Scribe
