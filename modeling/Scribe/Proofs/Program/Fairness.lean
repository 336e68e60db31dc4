import Scribe.Proofs.Program.Callers

/-!
# Calls return

Under a schedule that passes nobody over forever, every call returns. The only thing that a call
waits for is an entry that somebody else is filling, and whoever fills it needs one more move.
-/

namespace Scribe

namespace Callers

/-- Every caller moves again and again. -/
def Fair (schedule : Nat → Event ι) : Prop := ∀ i n, ∃ m, n ≤ m ∧ schedule m = .move i

namespace State

variable {κ ι : Type} [DecidableEq ι] [BEq κ] (h : Hashing κ) {requests : ι → Request}
  {schedule : Nat → Event ι}

/-! ## From one event to the next -/

theorem after_move {n : Nat} {i : ι} (hmove : schedule n = .move i) :
    after h requests schedule (n + 1) =
      (after h requests schedule n).move h (requests i) i := by
  simp only [after, step, hmove]

theorem after_filled {n m : Nat} (hnm : n ≤ m) {e : Nat} {p : Program}
    (he : (after h requests schedule n).entries[e]? = some (.filled p)) :
    (after h requests schedule m).entries[e]? = some (.filled p) := by
  induction m, hnm using Nat.le_induction with
  | base => exact he
  | succ m _ ih =>
      exact (step_grown h (after_sound h requests schedule m) (schedule m)).filled e p ih

theorem step_filling_of_ne {s : State κ ι} (hs : Sound requests s) {event : Event ι} {i : ι}
    {e : Nat} (hne : event ≠ .move i) (he : s.entries[e]? = some (.filling i)) :
    (s.step h requests event).entries[e]? = some (.filling i) := by
  cases event with
  | clear => exact he
  | move j =>
      have hj : i ≠ j := fun hij => hne (hij ▸ rfl)
      have hmoved := move_moved h hs j
      -- A caller begins with blank entries and finishes its own, so this one is not the one set.
      have hset : ∀ {e' : Nat} {new found : Entry ι}, s.entries[e']? = some found →
          found ≠ .filling i → (s.entries.set e' new)[e]? = some (.filling i) := by
        intro e' new found hfound hne'
        have hother : e' ≠ e := by
          rintro rfl
          exact hne' (Option.some.inj (hfound.symm.trans he))
        rwa [List.getElem?_set_ne hother]
      show (s.move h (requests j) j).entries[e]? = _
      generalize s.move h (requests j) j = s' at hmoved ⊢
      cases hmoved with
      | made =>
          show (s.entries ++ [.blank])[e]? = _
          rw [List.getElem?_append_left (List.getElem?_eq_some_iff.mp he).1]
          exact he
      | began _ he' => exact hset he' nofun
      | finished _ he' => exact hset he' fun hfilling => hj (Entry.filling.inj hfilling).symm
      | _ => exact he

section Fair

variable (hfair : Fair schedule)
include hfair

/-- What only a move of one caller can change lasts until that caller moves. -/
theorem lasts_until_move {P : State κ ι → Prop} {i : ι}
    (hkeep : ∀ n, schedule n ≠ .move i → P (after h requests schedule n) →
      P (after h requests schedule (n + 1))) {n : Nat} (hP : P (after h requests schedule n)) :
    ∃ m, n ≤ m ∧ schedule m = .move i ∧ P (after h requests schedule m) := by
  obtain ⟨m, hnm, hm⟩ := hfair i n
  obtain ⟨d, rfl⟩ := Nat.exists_eq_add_of_le hnm
  induction d generalizing n with
  | zero => exact ⟨n, Nat.le_refl n, hm, hP⟩
  | succ d ih =>
      by_cases hn : schedule n = .move i
      · exact ⟨n, Nat.le_refl n, hn, hP⟩
      · have hm' : schedule (n + 1 + d) = .move i := by rwa [Nat.add_assoc, Nat.add_comm 1 d]
        obtain ⟨m, hle, hmove, hPm⟩ := ih (hkeep n hn hP) (Nat.le_add_right _ _) hm'
        exact ⟨m, Nat.le_of_succ_le hle, hmove, hPm⟩

theorem stays_until_move {i : ι} {stage : Stage} {n : Nat}
    (hcall : (after h requests schedule n).calls i = stage) :
    ∃ m, n ≤ m ∧ schedule m = .move i ∧ (after h requests schedule m).calls i = stage :=
  lasts_until_move h hfair (P := fun s => s.calls i = stage)
    (fun m hm hstage => (step_calls_of_ne h (after_sound h requests schedule m) hm).trans hstage)
    hcall

theorem filling_ends {i : ι} {n e : Nat}
    (he : (after h requests schedule n).entries[e]? = some (.filling i)) :
    ∃ m, n ≤ m ∧ ∃ p, (after h requests schedule m).entries[e]? = some (.filled p) := by
  obtain ⟨m, hnm, hmove, hem⟩ := lasts_until_move h hfair
    (P := fun s => s.entries[e]? = some (.filling i))
    (fun m hm => step_filling_of_ne h (after_sound h requests schedule m) hm) he
  have hcall := (after_sound h requests schedule m).filler e i hem
  have hlt := (List.getElem?_eq_some_iff.mp hem).1
  refine ⟨m + 1, Nat.le_succ_of_le hnm, (requests i).program, ?_⟩
  rw [after_move h hmove]
  simp only [move, hcall, hem, if_true]
  exact List.getElem?_set_self hlt

/-- An entry that is held gets filled: its holder begins to, unless somebody else has. -/
theorem held_filled {i : ι} {n e : Nat}
    (hcall : (after h requests schedule n).calls i = .holding e) :
    ∃ m, n ≤ m ∧ ∃ p, (after h requests schedule m).entries[e]? = some (.filled p) := by
  obtain ⟨m, hnm, hmove, hcallm⟩ := stays_until_move h hfair hcall
  have hkept := (after_sound h requests schedule m).stages i
  rw [hcallm] at hkept
  have hentry : (after h requests schedule m).entries[e]? = some _ :=
    List.getElem?_eq_getElem hkept
  cases he : (after h requests schedule m).entries[e] with
  | filled p => exact ⟨m, hnm, p, by rw [hentry, he]⟩
  | filling j =>
      obtain ⟨m', hle, hfilled⟩ := filling_ends h hfair (hentry.trans (congrArg some he))
      exact ⟨m', Nat.le_trans hnm hle, hfilled⟩
  | blank =>
      have hbegun : (after h requests schedule (m + 1)).entries[e]? = some (.filling i) := by
        have hlt : e < (after h requests schedule m).entries.length := hkept
        rw [after_move h hmove]
        simp only [move, hcallm, hentry, he]
        exact List.getElem?_set_self hlt
      obtain ⟨m', hle, hfilled⟩ := filling_ends h hfair hbegun
      exact ⟨m', by omega, hfilled⟩

/-- Who holds an entry gets past it. -/
theorem holding_passes {i : ι} {n e : Nat}
    (hcall : (after h requests schedule n).calls i = .holding e) :
    ∃ m, n ≤ m ∧ (after h requests schedule m).calls i = .passed e := by
  by_contra hnever
  have hholds : ∀ m, n ≤ m → (after h requests schedule m).calls i = .holding e := by
    intro m hnm
    induction m, hnm using Nat.le_induction with
    | base => exact hcall
    | succ m hnm ih =>
        have hnot : (after h requests schedule (m + 1)).calls i ≠ .passed e :=
          fun hpassed => hnever ⟨m + 1, Nat.le_succ_of_le hnm, hpassed⟩
        by_cases hmove : schedule m = .move i
        · have hmoved := move_moved h (after_sound h requests schedule m) i
          rw [← after_move h hmove] at hmoved
          generalize after h requests schedule (m + 1) = s at hmoved hnot ⊢
          cases hmoved with
          | began | waited => exact ih
          | finished hcall' | went hcall' =>
              rw [ih] at hcall'
              cases hcall'
              exact absurd (put_calls_self _ _ _) hnot
          | found hcall' | made hcall' | looked hcall' | rested hcall' =>
              rw [ih] at hcall'
              cases hcall'
        · exact (step_calls_of_ne h (after_sound h requests schedule m) hmove).trans ih
  obtain ⟨m, hnm, p, hp⟩ := held_filled h hfair hcall
  obtain ⟨m', hmm', hmove, hcall'⟩ := stays_until_move h hfair (hholds m hnm)
  have hp' := after_filled h hmm' hp
  refine hnever ⟨m' + 1, by omega, ?_⟩
  rw [after_move h hmove]
  simp [move, hcall', hp']

theorem call_returns (i : ι) :
    ∃ n, (after h requests schedule n).calls i = .returned (requests i).program := by
  have hcalled : (after h requests schedule 0).calls i = .called := rfl
  obtain ⟨n, -, hmove, hcall⟩ := stays_until_move h hfair hcalled
  have hholds : ∃ e, (after h requests schedule (n + 1)).calls i = .holding e := by
    rw [after_move h hmove]
    cases hlookup : (after h requests schedule n).index.lookup
        (h.key (requests i).source (requests i).limit) with
    | none => exact ⟨_, by simp [move, hcall, hlookup, put]; rfl⟩
    | some e => exact ⟨e, by simp [move, hcall, hlookup]⟩
  obtain ⟨e, hholding⟩ := hholds
  obtain ⟨m, -, hpassed⟩ := holding_passes h hfair hholding
  obtain ⟨m', -, hmove', hpassed'⟩ := stays_until_move h hfair hpassed
  have hmoved := move_moved h (after_sound h requests schedule m') i
  rw [← after_move h hmove'] at hmoved
  refine ⟨m' + 1, ?_⟩
  generalize after h requests schedule (m' + 1) = s at hmoved ⊢
  cases hmoved with
  | looked => exact put_calls_self _ _ _
  | found hcall' | made hcall' | began hcall' | finished hcall' | waited hcall' | went hcall'
  | rested hcall' =>
      rw [hpassed'] at hcall'
      cases hcall'

end Fair

/-! ## What the callers are given -/

theorem returned_eq {n : Nat} {i : ι} {p : Program}
    (hcall : (after h requests schedule n).calls i = .returned p) : p = (requests i).program := by
  have hkept := (after_sound h requests schedule n).stages i
  rw [hcall] at hkept
  exact hkept

/-- The cache cannot be noticed: whatever the keys are and whoever moves when, a call never finds
an entry without a program, is given the program of its own text and limit, and returns if nobody is
passed over forever. A script then runs as it does without the cache, with the program that it was
given as well as with the programs that others left. -/
theorem calls_transparent (requests : ι → Request) (schedule : Nat → Event ι) :
    (∀ n i, (after h requests schedule n).calls i ≠ .broken) ∧
    (∀ n i p, (after h requests schedule n).calls i = .returned p →
      p = Program.ofSource (requests i).source (requests i).limit) ∧
    (Fair schedule → ∀ i, ∃ n, (after h requests schedule n).calls i =
      .returned (Program.ofSource (requests i).source (requests i).limit)) ∧
    (∀ n i p (x : Interpreter), (after h requests schedule n).calls i = .returned p →
      x.options.limit = (requests i).limit →
      (x.runProgram p).interpreter = (x.run (requests i).source).interpreter ∧
        (x.runProgram p).diagnostics = (x.run (requests i).source).diagnostics) ∧
    (∀ n source (x : Interpreter),
      let cached := (x.runCached h (after h requests schedule n).kept source).1
      cached.interpreter = (x.run source).interpreter ∧
        cached.diagnostics = (x.run source).diagnostics) := by
  refine ⟨?_, ?_, ?_, ?_, ?_⟩
  · intro n i hbroken
    have hkept := (after_sound h requests schedule n).stages i
    rw [hbroken] at hkept
    exact hkept
  · intro n i p hcall
    exact returned_eq h hcall
  · intro hfair i
    exact call_returns h hfair i
  · intro n i p x hcall hlimit
    rw [returned_eq h hcall]
    simp only [Request.program, Interpreter.run, hlimit, and_self]
  · intro n source x
    exact Cache.runCached_eq_run h (after_sound h requests schedule n).kept_sound x source

/-- Two callers with one key for two texts move in turn, and the cache is cleared in between. -/
theorem colliding_calls_transparent :
    let h : Hashing Unit := ⟨fun _ _ => (), fun _ => []⟩
    let requests : Bool → Request := fun i => ⟨if i then utf8 "print 1;" else utf8 "print 2;", 8⟩
    let schedule : Nat → Event Bool := fun n =>
      if n % 3 = 0 then .move true else if n % 3 = 1 then .move false else .clear
    ∀ i, ∃ n, (after h requests schedule n).calls i =
      .returned (Program.ofSource (requests i).source (requests i).limit) := by
  intro h requests schedule
  have hfair : Fair schedule := by
    intro i n
    cases i with
    | true => exact ⟨3 * n, by omega, by simp [schedule]⟩
    | false => exact ⟨3 * n + 1, by omega, by simp [schedule]⟩
  exact (calls_transparent h requests schedule).2.2.1 hfair

end State

end Callers

end Scribe
