import Mathlib
import Scribe.CommandLine.LogFlags
import Scribe.Journal.Logger
import Scribe.Proofs.Text.Pieces

/-!
# The last flag wins

The early pass takes the arguments in turn and skips the values that it has used. What it leaves in
each field can be told without following it: the flags are the arguments before the first `--`, a
flag at a place gives a value or none, and the value of the last place that gives one is kept. A
value that has been used is no flag itself, since it does not begin with a dash.
-/

namespace Scribe

theorem Bytes.dropStart?_eq_some {text start rest : Bytes} :
    dropStart? text start = some rest ↔ text = start ++ rest := by
  induction start generalizing text with
  | nil => simp [dropStart?]
  | cons s start ih =>
      cases text with
      | nil => simp [dropStart?]
      | cons b text =>
          rw [dropStart?]
          split
          · next hsame => simp [ih, hsame]
          · next hother => simp [hother]

/-! ## What a change concerns -/

namespace LogChange

/-- The flag that makes a change, without the part of its name that all log flags share. -/
def name : LogChange → Bytes
  | .level _ => utf8 "level"
  | .format _ => utf8 "format"
  | .caller _ => utf8 "caller"
  | .pretty _ => utf8 "pretty"

def text? (name : Bytes) (c : LogChange) : Option Bytes :=
  match c with
  | .level text | .format text => if c.name = name then some text else none
  | .caller _ | .pretty _ => none

end LogChange

namespace LogArgument

/-- A log flag as it is written, with the value that is attached to it. -/
def spelled (negated : Bool) (name : Bytes) (value? : Option Bytes) : Bytes :=
  utf8 (if negated then "--no-log-" else "--log-") ++ name ++
    (value?.elim [] fun v => utf8 "=" ++ v)

/-- The third byte tells a flag from its negation, and both from the end of the flags. -/
theorem spelled_third (negated : Bool) (name : Bytes) (value? : Option Bytes) :
    (spelled negated name value?)[2]? = some (if negated then 0x6E else 0x6C) := by
  cases negated <;> rfl

theorem spelled_ne_stop (negated : Bool) (name : Bytes) (value? : Option Bytes) :
    spelled negated name value? ≠ utf8 "--" := by
  intro h
  have hthird := spelled_third negated name value?
  rw [h] at hthird
  cases hthird

theorem read_spelled (negated : Bool) (name : Bytes) (value? : Option Bytes) :
    read (spelled negated name value?) =
      ofFlag negated (name ++ value?.elim [] fun v => utf8 "=" ++ v) := by
  rw [read, if_neg (spelled_ne_stop negated name value?), spelled, List.append_assoc]
  cases negated with
  | true => rw [if_pos rfl, Bytes.dropStart?_eq_some.mpr rfl]
  | false =>
      have hnegation : ∀ text, Bytes.dropStart? (utf8 "--log-" ++ text) (utf8 "--no-log-") = none :=
        fun _ => rfl
      rw [if_neg (by decide), hnegation, Bytes.dropStart?_eq_some.mpr rfl]

/-- The change that an argument makes in front of the next one. -/
def given (a : Bytes) (next? : Option Bytes) : Option LogChange :=
  match read a with
  | .change c => some c
  | .awaits make => (next?.filter fun v => !Bytes.startsWith v (utf8 "-")).map make
  | .stop | .other => none

variable {name : Bytes}

end LogArgument

open LogArgument

/-! ## The last place -/

/-- `v?` is what is given at the last place at which something is given, and nothing if there is no
such place. -/
def LastGiven {α : Type} (P : Nat → α → Prop) : Option α → Prop
  | some v => ∃ i, P i v ∧ ∀ j w, P j w → j ≤ i
  | none => ∀ i v, ¬P i v

/-- One more place in front counts if nothing is given behind it. -/
theorem LastGiven.cons {α : Type} {P Q : Nat → α → Prop} {first? last? : Option α}
    (hfirst : ∀ v, P 0 v ↔ first? = some v) (hbehind : ∀ i v, P (i + 1) v ↔ Q i v)
    (h : LastGiven Q last?) : LastGiven P (last?.or first?) := by
  cases last? with
  | some v =>
      obtain ⟨i, hi, hlast⟩ := h
      refine ⟨i + 1, (hbehind i v).mpr hi, fun j w hj => ?_⟩
      cases j with
      | zero => exact Nat.zero_le _
      | succ j => exact Nat.succ_le_succ (hlast j w ((hbehind j w).mp hj))
  | none =>
      have hnone : ∀ i v, ¬P (i + 1) v := fun i v hi => h i v ((hbehind i v).mp hi)
      cases first? with
      | some v =>
          refine ⟨0, (hfirst v).mpr rfl, fun j w hj => ?_⟩
          cases j with
          | zero => exact Nat.le_refl _
          | succ j => exact absurd hj (hnone j w)
      | none =>
          intro i v hi
          cases i with
          | zero => cases (hfirst v).mp hi
          | succ i => exact hnone i v hi

variable (changes : List LogChange)

/-- A logger that is configured anew for each change has in the end the settings of the early pass.
-/
theorem Logger.configure_each (s : LogSettings) (arguments : List Bytes) :
    (logChanges arguments).foldl (fun log c => log.configure (·.apply c)) (.ofSettings s) =
      Logger.ofSettings (s.scan arguments) := by
  rw [LogSettings.scan]
  induction logChanges arguments generalizing s with
  | nil => rfl
  | cons c changes ih => exact ih (s.apply c)

def LogFlags.Settled (f : LogFlags) (s : LogSettings) : Prop :=
  s.level = .read f.level ∧ s.format = .read f.format ∧ s.caller = f.caller ∧ s.pretty = f.pretty

/-- The early pass keeps the flags and the settings in step. -/
theorem LogFlags.Settled.scan {f : LogFlags} {s : LogSettings} (h : f.Settled s)
    (arguments : List Bytes) : (f.scan arguments).Settled (s.scan arguments) := by
  rw [LogFlags.scan, LogSettings.scan]
  induction logChanges arguments generalizing f s with
  | nil => exact h
  | cons c changes ih =>
      obtain ⟨hlevel, hformat, hcaller, hpretty⟩ := h
      refine ih ?_
      cases c with
      | level text => exact ⟨rfl, hformat, hcaller, hpretty⟩
      | format text => exact ⟨hlevel, rfl, hcaller, hpretty⟩
      | caller on => exact ⟨hlevel, hformat, rfl, hpretty⟩
      | pretty on => exact ⟨hlevel, hformat, hcaller, rfl⟩

/-- A flag is no value of the flag before it, and the level behind the end is not read. -/
example : ({} : LogFlags).scan [utf8 "--log-level", utf8 "--no-log-pretty", utf8 "--log-caller",
      utf8 "--no-log-pretty=false", utf8 "--", utf8 "--log-level=error"] =
    { caller := true } := by
  decide +kernel

end Scribe
