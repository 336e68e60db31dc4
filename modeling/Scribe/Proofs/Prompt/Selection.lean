import Scribe.Proofs.Prompt.Offsets

/-!
# What is selected

A prompt remembers which entry of the history it shows and which candidate it tries. More than ten
keys change one or the other, and some change the lists that they point into. In every state that a
prompt comes to, both point into their lists, and a candidate is selected exactly while candidates
are being tried.
-/

namespace Scribe

namespace Prompt

variable {ε : Type} [Parts ε]

/-- The prompt after events. Unlike in a run nothing is shown in between, so that states from which
nothing can be shown are among those that it comes to. -/
def after (p : Prompt ε) (events : List Event) : Option (Prompt ε) :=
  events.foldlM (fun p e => (p.handle e).map Prod.fst) p

/-- The places that a prompt remembers are places of its lists. -/
structure Consistent (p : Prompt ε) : Prop where
  place : p.place ≤ p.history.size
  cycling : p.cycling = true → 2 ≤ p.found.length ∧ ∃ i, p.selected = some i ∧ i < p.found.length
  idle : p.cycling = false → p.selected = none

variable {p q : Prompt ε}

theorem start_consistent (session : Session) (history : History) :
    (start session history : Prompt ε).Consistent :=
  ⟨Nat.le_refl _, by simp [start], fun _ => rfl⟩

/-! ## Changes of the line -/

theorem refresh_consistent {confirm : Bool} (h : p.refresh confirm = some q)
    (hplace : p.place ≤ p.history.size) (hidle : p.cycling = false) : q.Consistent := by
  unfold refresh at h
  rw [if_neg (by simp [hidle])] at h
  simp only at h
  split at h
  · cases h
  · cases h
    exact ⟨hplace, fun hcycling => absurd (hidle.symm.trans hcycling) (by decide), fun _ => rfl⟩

theorem clearLine_consistent (h : p.clearLine = some q) : q.Consistent :=
  refresh_consistent h (Nat.le_refl _) rfl

theorem change_consistent {confirm : Bool} {f : ε → ε}
    (h : p.change confirm f = some q) : q.Consistent :=
  refresh_consistent h (Nat.le_refl _) rfl

omit [Parts ε] in
theorem exists_entry (h : p.place < p.history.size) :
    ∃ line, p.history.get? p.place = some line := by
  rw [History.get?, if_neg (by omega), Int.toNat_natCast]
  exact ⟨_, List.getElem?_eq_getElem h⟩

theorem showEntry_consistent (h : p.showEntry = some q) (hplace : p.place < p.history.size) :
    q.Consistent := by
  obtain ⟨line, hline⟩ := exists_entry hplace
  simp only [showEntry, hline] at h
  exact refresh_consistent h (Nat.le_of_lt hplace) rfl

theorem Consistent.older (hp : p.Consistent) (h : p.older = some q) : q.Consistent := by
  unfold Prompt.older at h
  split at h
  · next hpos =>
      exact showEntry_consistent h (Nat.lt_of_lt_of_le (Nat.sub_one_lt_of_lt hpos) hp.place)
  · cases h
    exact hp

theorem newer_consistent (h : p.newer = some q) : q.Consistent := by
  unfold newer at h
  split at h
  · next hlater => exact showEntry_consistent h hlater
  · exact clearLine_consistent h

/-! ## Candidates -/

/-- A candidate in place of the word changes neither lists nor places. -/
theorem Consistent.replaceWord {text : Bytes} (h : p.replaceWord text = some q)
    (hp : p.Consistent) : q.Consistent := by
  simp only [Prompt.replaceWord] at h
  split at h
  · cases h
    exact ⟨hp.place, hp.cycling, hp.idle⟩
  · cases h

theorem Consistent.cycle {d : Direction} (hp : p.Consistent) (h : p.cycle d = some q) :
    q.Consistent := by
  unfold Prompt.cycle at h
  split at h
  · cases h
    exact hp
  · obtain ⟨r, hr, rfl⟩ := Option.map_eq_some_iff.mp h
    simp only [Prompt.replaceWord] at hr
    split at hr
    · cases hr
      exact ⟨hp.place, by simp, fun _ => rfl⟩
    · cases hr
  · next hnil hone =>
      have hseveral : 2 ≤ p.found.length := by
        rcases hfound : p.found with _ | ⟨m, _ | ⟨n, rest⟩⟩
        · exact absurd hfound hnil
        · exact absurd hfound (hone m)
        · simp
      have hnext : d.next (if p.cycling then p.selected else none) p.found.length <
          p.found.length := next_lt d _ (by omega)
      simp only [List.getElem?_eq_getElem hnext] at h
      exact Consistent.replaceWord h ⟨hp.place, fun _ => ⟨hseveral, _, rfl, hnext⟩, by simp⟩

/-! ## Entering a line -/

/-- A command leaves history and candidates alone. -/
theorem Consistent.obey (hp : p.Consistent) (c : Command) : (p.obey c).1.Consistent := by
  cases c <;> exact ⟨hp.place, hp.cycling, hp.idle⟩

/-- Entering a line drops the candidates, so none may be selected when a line is entered. -/
theorem Consistent.enterLine (hp : p.Consistent) (hidle : p.cycling = false) :
    p.enterLine.1.Consistent := by
  unfold Prompt.enterLine
  dsimp only
  split
  · exact hp
  · have hentered : Consistent
        { p with
          editor := LineInput.setBytes p.editor [], found := []
          history := (p.history.write (Bytes.trim p.line)).history
          place := (p.history.write (Bytes.trim p.line)).history.size } :=
      ⟨Nat.le_refl _, fun hcycling => absurd (hidle.symm.trans hcycling) (by decide), hp.idle⟩
    split
    · exact hentered.obey _
    · exact ⟨hentered.place, hentered.cycling, hentered.idle⟩

/-! ## Steps and runs -/

omit [Parts ε] in
theorem quiet_eq_some {r : Option (Prompt ε)} {effects : List Effect}
    (h : quiet r = some (q, effects)) : r = some q := by
  obtain ⟨s, rfl, hs⟩ := Option.map_eq_some_iff.mp h
  rw [(Prod.mk.inj hs).1]

omit [Parts ε] in
theorem Consistent.quit {effects : List Effect} (hp : p.Consistent)
    (h : p.quit = some (q, effects)) : q.Consistent := by
  cases h
  exact ⟨hp.place, hp.cycling, hp.idle⟩

theorem Consistent.press {k : Key} {effects : List Effect} (hp : p.Consistent)
    (h : p.press k = some (q, effects)) : q.Consistent := by
  cases k with
  | enter =>
      rw [Prompt.press] at h
      split at h
      · exact refresh_consistent (quiet_eq_some h) hp.place rfl
      · next hplain =>
          -- Candidates that are being tried are candidates.
          have hidle : p.cycling = false := by
            by_contra hcycling
            rw [Bool.not_eq_false] at hcycling
            have hseveral := (hp.cycling hcycling).1
            cases hfound : p.found with
            | nil => simp [hfound] at hseveral
            | cons m rest => simp [hcycling, hfound] at hplain
          have hq := hp.enterLine hidle
          rw [Option.some.inj h] at hq
          exact hq
  | tab => exact hp.cycle (quiet_eq_some h)
  | backTab => exact hp.cycle (quiet_eq_some h)
  | up => exact hp.older (quiet_eq_some h)
  | down => exact newer_consistent (quiet_eq_some h)
  | escape =>
      have h' := quiet_eq_some h
      split at h'
      · exact refresh_consistent h' hp.place rfl
      · exact clearLine_consistent h'
  | interrupt =>
      rw [Prompt.press] at h
      split at h
      · exact hp.quit h
      · exact clearLine_consistent (quiet_eq_some h)
  | endOfInput =>
      rw [Prompt.press] at h
      split at h
      · exact hp.quit h
      · cases h
        exact hp
  | typed cs => exact change_consistent (quiet_eq_some h)
  | edit command => exact change_consistent (quiet_eq_some h)

theorem Consistent.handle {e : Event} {effects : List Effect} (hp : p.Consistent)
    (h : p.handle e = some (q, effects)) : q.Consistent := by
  cases e with
  | key k => exact hp.press h
  | resize width =>
      cases h
      exact ⟨hp.place, hp.cycling, hp.idle⟩
  | edited result =>
      rw [Prompt.handle, Option.some.injEq] at h
      cases result <;> cases h <;> exact ⟨hp.place, hp.cycling, hp.idle⟩
  | other =>
      cases h
      exact hp

theorem after_cons (e : Event) (events : List Event) :
    p.after (e :: events) = ((p.handle e).map Prod.fst).bind (·.after events) := rfl

theorem after_keeps {I : Prompt ε → Prop}
    (hstep : ∀ p e q effects, I p → p.handle e = some (q, effects) → I q) {events : List Event}
    (hp : I p) (h : p.after events = some q) : I q := by
  induction events generalizing p with
  | nil =>
      cases h
      exact hp
  | cons e events ih =>
      rw [after_cons, Option.bind_eq_some_iff] at h
      obtain ⟨r, hr, hq⟩ := h
      obtain ⟨⟨r, effects⟩, hhandle, rfl⟩ := Option.map_eq_some_iff.mp hr
      exact ih (hstep p e r effects hp hhandle) hq

theorem Consistent.after {events : List Event} (hp : p.Consistent)
    (h : p.after events = some q) : q.Consistent :=
  after_keeps (fun _ _ _ _ hp hhandle => hp.handle hhandle) hp h

/-- Whatever is pressed and however edits end, the shown entry is one of the history or the line
behind it, and a candidate is selected exactly while several are being tried. -/
theorem selection_in_bounds {session : Session} {history : History} {events : List Event}
    (h : (start session history).after events = some p) :
    p.place ≤ p.history.size ∧
      (p.cycling = true →
        2 ≤ p.found.length ∧ ∃ i, p.selected = some i ∧ i < p.found.length) ∧
      (p.cycling = false → p.selected = none) := by
  have hp := (start_consistent session history).after h
  exact ⟨hp.place, hp.cycling, hp.idle⟩

/-- A look at the last entry, then one step back from the first of seven candidates. -/
theorem last_candidate_in_bounds :
    let history : History :=
      { archive := .memory, entries := [utf8 "print 1;", utf8 "let a = 2;"] }
    let events : List Event :=
      [.key .up, .key .interrupt, .key (.typed ['e']), .key .tab, .key .backTab]
    ∃ p : Prompt, (start (.start {} []) history).after events = some p ∧
      (p.cycling, p.selected, p.found.length) = (true, some 6, 7) ∧
      p.place ≤ p.history.size ∧
      (p.cycling = true →
        2 ≤ p.found.length ∧ ∃ i, p.selected = some i ∧ i < p.found.length) ∧
      (p.cycling = false → p.selected = none) := by
  intro history events
  have hshown : ((start (.start {} []) history : Prompt).after events).map
      (fun p => (p.cycling, p.selected, p.found.length)) = some (true, some 6, 7) := by
    decide +kernel
  obtain ⟨p, hp, hselected⟩ := Option.map_eq_some_iff.mp hshown
  exact ⟨p, hp, hselected, selection_in_bounds hp⟩

end Prompt

end Scribe
