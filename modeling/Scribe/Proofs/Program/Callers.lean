import Mathlib
import Scribe.Interpreter

/-!
# Callers that share a cache

Several callers look for their programs in one cache at the same time. A caller first takes hold of
the entry of its key, making one if there is none. The first caller that then comes to the entry
fills it, and the others wait until it is filled. At last a caller looks whether the program it
finds is its own. Between any two of these moves other callers may move, and the cache may be
cleared; a caller keeps the entry that it holds.

A schedule says who moves when. Whatever it is, a caller is only ever given its own program, and if
nobody is passed over forever, everybody is given one.
-/

namespace Scribe

namespace Cache

variable {κ : Type} [BEq κ]

/-- Every program that is kept is the program of its own text and limit. -/
def Sound (cache : Cache κ) : Prop :=
  ∀ entry ∈ cache, entry.2 = Program.ofSource entry.2.source entry.2.limit

theorem mem_of_lookup {β : Type} {key : κ} {b : β} {entries : List (κ × β)}
    (h : entries.lookup key = some b) : ∃ k, (k, b) ∈ entries := by
  induction entries with
  | nil => cases h
  | cons entry rest ih =>
      rw [List.lookup_cons] at h
      split at h
      · cases h
        exact ⟨_, List.mem_cons_self⟩
      · obtain ⟨k, hk⟩ := ih h
        exact ⟨k, List.mem_cons_of_mem _ hk⟩

theorem eq_ofSource_of_isFor {p : Program} {source : Bytes} {limit : Nat}
    (hp : p = Program.ofSource p.source p.limit) (h : isFor p source limit = true) :
    p = Program.ofSource source limit := by
  simp only [isFor, Bool.and_eq_true, beq_iff_eq] at h
  rw [h.1, h.2] at hp
  exact hp

theorem compile_program (h : Hashing κ) {cache : Cache κ} (hsound : cache.Sound) (source : Bytes)
    (limit : Nat) : (compile h cache source limit).program = Program.ofSource source limit := by
  simp only [compile]
  split
  · rfl
  · next kept hkept =>
      obtain ⟨k, hmem⟩ := mem_of_lookup hkept
      by_cases hfor : isFor kept source limit = true
      · rw [if_pos hfor]
        exact eq_ofSource_of_isFor (hsound _ hmem) hfor
      · rw [if_neg hfor]

theorem compile_sound (h : Hashing κ) {cache : Cache κ} (hsound : cache.Sound) (source : Bytes)
    (limit : Nat) : (compile h cache source limit).cache.Sound := by
  simp only [compile]
  split
  · intro entry hentry
    rcases List.mem_cons.mp hentry with rfl | hentry
    · rfl
    · exact hsound entry hentry
  · split <;> exact hsound

theorem runCached_eq_run (h : Hashing κ) {cache : Cache κ} (hsound : cache.Sound) (i : Interpreter)
    (source : Bytes) :
    (i.runCached h cache source).1.interpreter = (i.run source).interpreter ∧
      (i.runCached h cache source).1.diagnostics = (i.run source).diagnostics := by
  simp only [Interpreter.runCached, Interpreter.run, compile_program h hsound, and_self]

end Cache

namespace Callers

structure Request where
  source : Bytes
  limit : Nat

def Request.program (q : Request) : Program := Program.ofSource q.source q.limit

/-- An entry of the cache: nobody has come to it, somebody is filling it, or it is filled. -/
inductive Entry (ι : Type) where
  | blank
  | filling (caller : ι)
  | filled (p : Program)

def Entry.program? : Entry ι → Option Program
  | .filled p => some p
  | _ => none

/-- How far a call has come; entries go by their numbers. A call is `broken` that looks for a
program in an entry which has none. -/
inductive Stage where
  | called
  | holding (entry : Nat)
  | passed (entry : Nat)
  | returned (p : Program)
  | broken

/-- The entries in use by their keys, all entries there have been, and the calls. -/
structure State (κ ι : Type) where
  index : List (κ × Nat)
  entries : List (Entry ι)
  calls : ι → Stage

/-- One thing that happens. -/
inductive Event (ι : Type) where
  | move (caller : ι)
  | clear

namespace State

variable {κ ι : Type}

def start : State κ ι := ⟨[], [], fun _ => .called⟩

def put [DecidableEq ι] (s : State κ ι) (i : ι) (stage : Stage) : State κ ι :=
  { s with calls := Function.update s.calls i stage }

/-- The next move of a caller. One that has to wait, or has returned, changes nothing. -/
def move [DecidableEq ι] [BEq κ] (h : Hashing κ) (q : Request) (i : ι) (s : State κ ι) :
    State κ ι :=
  match s.calls i with
  | .called =>
      match s.index.lookup (h.key q.source q.limit) with
      | some e => s.put i (.holding e)
      | none =>
          { s.put i (.holding s.entries.length) with
            index := (h.key q.source q.limit, s.entries.length) :: s.index
            entries := s.entries ++ [.blank] }
  | .holding e =>
      match s.entries[e]? with
      | some .blank => { s with entries := s.entries.set e (.filling i) }
      | some (.filling j) =>
          if j = i then { s.put i (.passed e) with entries := s.entries.set e (.filled q.program) }
          else s
      | some (.filled _) => s.put i (.passed e)
      | none => s.put i .broken
  | .passed e =>
      match s.entries[e]? with
      | some (.filled p) =>
          s.put i (.returned (if Cache.isFor p q.source q.limit then p else q.program))
      | _ => s.put i .broken
  | .returned _ => s
  | .broken => s

/-- A cleared cache forgets its keys; entries that are held stay. -/
def step [DecidableEq ι] [BEq κ] (h : Hashing κ) (requests : ι → Request) (s : State κ ι) :
    Event ι → State κ ι
  | .move i => s.move h (requests i) i
  | .clear => { s with index := [] }

def after [DecidableEq ι] [BEq κ] (h : Hashing κ) (requests : ι → Request)
    (schedule : Nat → Event ι) : Nat → State κ ι
  | 0 => start
  | n + 1 => (after h requests schedule n).step h requests (schedule n)

def kept (s : State κ ι) : Cache κ :=
  s.index.filterMap fun (key, e) => (s.entries[e]?.bind Entry.program?).map (key, ·)

theorem program?_eq_some {entry : Option (Entry ι)} {p : Program} :
    entry.bind Entry.program? = some p ↔ entry = some (.filled p) := by
  cases entry with
  | none => simp
  | some entry => cases entry <;> simp [Entry.program?]

theorem mem_kept {s : State κ ι} {key : κ} {p : Program} (h : (key, p) ∈ s.kept) :
    ∃ e : Nat, s.entries[e]? = some (.filled p) := by
  obtain ⟨⟨key', e⟩, -, he⟩ := List.mem_filterMap.mp h
  obtain ⟨p', hp', heq⟩ := Option.map_eq_some_iff.mp he
  cases heq
  exact ⟨e, program?_eq_some.mp hp'⟩

@[simp] theorem put_calls_self [DecidableEq ι] (s : State κ ι) (i : ι) (stage : Stage) :
    (s.put i stage).calls i = stage := Function.update_self ..

theorem put_calls_of_ne [DecidableEq ι] (s : State κ ι) {i j : ι} (stage : Stage) (h : j ≠ i) :
    (s.put i stage).calls j = s.calls j := Function.update_of_ne h ..

@[simp] theorem put_entries [DecidableEq ι] (s : State κ ι) (i : ι) (stage : Stage) :
    (s.put i stage).entries = s.entries := rfl

@[simp] theorem put_index [DecidableEq ι] (s : State κ ι) (i : ι) (stage : Stage) :
    (s.put i stage).index = s.index := rfl

/-! ## What every state satisfies -/

def Stage.Kept (q : Request) (entries : List (Entry ι)) : Stage → Prop
  | .called => True
  | .holding e => e < entries.length
  | .passed e => ∃ p, entries[e]? = some (.filled p)
  | .returned p => p = q.program
  | .broken => False

/-- Keys lead to entries, a caller that fills an entry holds it, and an entry is filled with the
program of some text. -/
structure Sound (requests : ι → Request) (s : State κ ι) : Prop where
  indexed : ∀ key e, (key, e) ∈ s.index → e < s.entries.length
  stages : ∀ i, Stage.Kept (requests i) s.entries (s.calls i)
  filler : ∀ (e : Nat) i, s.entries[e]? = some (.filling i) → s.calls i = .holding e
  filled : ∀ (e : Nat) p, s.entries[e]? = some (.filled p) →
    p = Program.ofSource p.source p.limit

theorem start_sound (requests : ι → Request) : Sound requests (start : State κ ι) where
  indexed _ _ h := absurd h List.not_mem_nil
  stages _ := trivial
  filler e i h := by simp [start] at h
  filled e p h := by simp [start] at h

/-- What one move can do. -/
inductive Moved [DecidableEq ι] (q : Request) (i : ι) (s : State κ ι) : State κ ι → Prop
  | found {e : Nat} (hcall : s.calls i = .called) (he : e < s.entries.length) :
      Moved q i s (s.put i (.holding e))
  | made {key : κ} (hcall : s.calls i = .called) :
      Moved q i s
        { s.put i (.holding s.entries.length) with
          index := (key, s.entries.length) :: s.index
          entries := s.entries ++ [.blank] }
  | began {e : Nat} (hcall : s.calls i = .holding e) (he : s.entries[e]? = some .blank) :
      Moved q i s { s with entries := s.entries.set e (.filling i) }
  | finished {e : Nat} (hcall : s.calls i = .holding e)
      (he : s.entries[e]? = some (.filling i)) :
      Moved q i s { s.put i (.passed e) with entries := s.entries.set e (.filled q.program) }
  | waited {e : Nat} {j : ι} (hcall : s.calls i = .holding e)
      (he : s.entries[e]? = some (.filling j)) (hj : j ≠ i) : Moved q i s s
  | went {e : Nat} {p : Program} (hcall : s.calls i = .holding e)
      (he : s.entries[e]? = some (.filled p)) : Moved q i s (s.put i (.passed e))
  | looked {e : Nat} (hcall : s.calls i = .passed e) :
      Moved q i s (s.put i (.returned q.program))
  | rested {p : Program} (hcall : s.calls i = .returned p) : Moved q i s s

section Move

variable [DecidableEq ι] [BEq κ] (h : Hashing κ) {requests : ι → Request} {s : State κ ι}
  (hs : Sound requests s)
include hs

theorem move_moved (i : ι) : Moved (requests i) i s (s.move h (requests i) i) := by
  have hstage := hs.stages i
  cases hcall : s.calls i with
  | called =>
      simp only [move, hcall]
      split
      · next e he =>
          obtain ⟨key, hkey⟩ := Cache.mem_of_lookup he
          exact .found hcall (hs.indexed key e hkey)
      · exact .made hcall
  | holding e =>
      rw [hcall] at hstage
      have hentry : s.entries[e]? = some s.entries[e] := List.getElem?_eq_getElem hstage
      simp only [move, hcall, hentry]
      cases he : s.entries[e] with
      | blank => exact .began hcall (by rw [hentry, he])
      | filled p => exact .went hcall (by rw [hentry, he])
      | filling j =>
          by_cases hj : j = i
          · simp only [if_pos hj]
            exact .finished hcall (by rw [hentry, he, hj])
          · simp only [if_neg hj]
            exact .waited hcall (by rw [hentry, he]) hj
  | passed e =>
      rw [hcall] at hstage
      obtain ⟨p, hp⟩ := hstage
      have hprogram : (if Cache.isFor p (requests i).source (requests i).limit then p
          else (requests i).program) = (requests i).program := by
        split
        · next hfor => exact Cache.eq_ofSource_of_isFor (hs.filled e p hp) hfor
        · rfl
      simp only [move, hcall, hp, hprogram]
      exact .looked hcall
  | returned p =>
      simp only [move, hcall]
      exact .rested hcall
  | broken =>
      rw [hcall] at hstage
      exact hstage.elim

end Move

/-- Entries are not lost, and filled ones stay as they are. -/
structure Grown (entries entries' : List (Entry ι)) : Prop where
  length : entries.length ≤ entries'.length
  filled : ∀ (e : Nat) p, entries[e]? = some (.filled p) → entries'[e]? = some (.filled p)

theorem Grown.refl (entries : List (Entry ι)) : Grown entries entries :=
  ⟨Nat.le_refl _, fun _ _ he => he⟩

theorem Grown.append (entries : List (Entry ι)) (new : Entry ι) :
    Grown entries (entries ++ [new]) := by
  refine ⟨by simp, fun e p he => ?_⟩
  rw [List.getElem?_append_left (List.getElem?_eq_some_iff.mp he).1]
  exact he

theorem Grown.set {entries : List (Entry ι)} {e : Nat} (new : Entry ι)
    (h : ∀ p, entries[e]? ≠ some (.filled p)) : Grown entries (entries.set e new) := by
  refine ⟨by simp, fun e' p he => ?_⟩
  have hne : e ≠ e' := fun heq => h p (heq ▸ he)
  rw [List.getElem?_set_ne hne]
  exact he

theorem Stage.Kept.grown {q : Request} {entries entries' : List (Entry ι)} {stage : Stage}
    (h : Stage.Kept q entries stage) (hgrown : Grown entries entries') :
    Stage.Kept q entries' stage := by
  cases stage with
  | holding e => exact Nat.lt_of_lt_of_le h hgrown.length
  | passed e =>
      obtain ⟨p, hp⟩ := h
      exact ⟨p, hgrown.filled e p hp⟩
  | _ => exact h

theorem getElem?_set_cases {entries : List (Entry ι)} {e e' : Nat} {new found : Entry ι}
    (h : (entries.set e new)[e']? = some found) :
    e' = e ∧ found = new ∨ e' ≠ e ∧ entries[e']? = some found := by
  by_cases he : e' = e
  · subst he
    have hlt : e' < entries.length := by
      have := (List.getElem?_eq_some_iff.mp h).1
      simpa using this
    rw [List.getElem?_set_self hlt, Option.some.injEq] at h
    exact .inl ⟨rfl, h.symm⟩
  · rw [List.getElem?_set_ne (Ne.symm he)] at h
    exact .inr ⟨he, h⟩

theorem getElem?_append_blank {entries : List (Entry ι)} {e : Nat} {found : Entry ι}
    (hfound : found ≠ .blank) (h : (entries ++ [.blank])[e]? = some found) :
    entries[e]? = some found := by
  rcases Nat.lt_trichotomy e entries.length with hlt | heq | hgt
  · rwa [List.getElem?_append_left hlt] at h
  · subst heq
    simp only [List.getElem?_concat_length, Option.some.injEq] at h
    exact absurd h.symm hfound
  · simp [List.getElem?_eq_none (show (entries ++ [Entry.blank]).length ≤ e by simp; omega)] at h

section Moved

variable [DecidableEq ι] {requests : ι → Request} {s s' : State κ ι} {i : ι}

theorem Moved.grown (hmoved : Moved (requests i) i s s') : Grown s.entries s'.entries := by
  cases hmoved with
  | made => exact .append _ _
  | began _ he => exact .set _ (by simp [he])
  | finished _ he => exact .set _ (by simp [he])
  | _ => exact .refl _

theorem Moved.calls_of_ne (hmoved : Moved (requests i) i s s') {j : ι} (hj : j ≠ i) :
    s'.calls j = s.calls j := by
  cases hmoved with
  | began | waited | rested => rfl
  | _ => exact put_calls_of_ne s _ hj

theorem Moved.kept (hs : Sound requests s) (hmoved : Moved (requests i) i s s') :
    Stage.Kept (requests i) s'.entries (s'.calls i) := by
  have hstage := hs.stages i
  cases hmoved with
  | found _ he => simpa [Stage.Kept] using he
  | made => simp [Stage.Kept, put]
  | began hcall he => exact hstage.grown (.set _ (by simp [he]))
  | @finished e hcall he =>
      have hlt := (List.getElem?_eq_some_iff.mp he).1
      simp [Stage.Kept, put, hlt]
  | waited | rested => exact hstage
  | @went e p _ he => simpa [Stage.Kept] using ⟨p, he⟩
  | looked => simp [Stage.Kept]

theorem Moved.sound (hs : Sound requests s) (hmoved : Moved (requests i) i s s') :
    Sound requests s' := by
  have hstages : ∀ j, Stage.Kept (requests j) s'.entries (s'.calls j) := by
    intro j
    by_cases hj : j = i
    · subst hj
      exact hmoved.kept hs
    · rw [hmoved.calls_of_ne hj]
      exact (hs.stages j).grown hmoved.grown
  -- Nobody but the caller itself changes its call, and the caller fills no other entry.
  have hfiller : ∀ {e : Nat} {j : ι}, s.entries[e]? = some (.filling j) →
      (j = i → s'.calls i = .holding e) → s'.calls j = .holding e := by
    intro e j he hself
    by_cases hj : j = i
    · subst hj
      exact hself rfl
    · rw [hmoved.calls_of_ne hj]
      exact hs.filler e j he
  have hcalled : ∀ {e : Nat} {j : ι} {stage : Stage}, s.calls i = stage →
      (∀ e, stage ≠ .holding e) → s.entries[e]? = some (.filling j) → j ≠ i := by
    rintro e j stage hcall hstage he rfl
    exact hstage e (hcall ▸ hs.filler e j he)
  cases hmoved with
  | found hcall he =>
      refine ⟨hs.indexed, hstages, fun e j hj => hfiller hj fun hji => ?_, hs.filled⟩
      exact absurd hji (hcalled hcall (by simp) hj)
  | made hcall =>
      refine ⟨?_, hstages, fun e j hj => ?_, fun e p hp => ?_⟩
      · intro key e hmem
        rcases List.mem_cons.mp hmem with heq | hmem
        · cases heq
          simp
        · have hlt := hs.indexed key e hmem
          simp
          omega
      · have hold := getElem?_append_blank (by simp) hj
        exact hfiller hold fun hji => absurd hji (hcalled hcall (by simp) hold)
      · exact hs.filled e p (getElem?_append_blank (by simp) hp)
  | @began e hcall he =>
      refine ⟨by simpa using hs.indexed, hstages, fun e' j hj => ?_, fun e' p hp => ?_⟩
      · rcases getElem?_set_cases hj with ⟨rfl, hnew⟩ | ⟨-, hold⟩
        · cases hnew
          exact hcall
        · exact hfiller hold fun hji => hji ▸ hs.filler e' j hold
      · rcases getElem?_set_cases hp with ⟨-, hnew⟩ | ⟨-, hold⟩
        · cases hnew
        · exact hs.filled e' p hold
  | @finished e hcall he =>
      refine ⟨by simpa using hs.indexed, hstages, fun e' j hj => ?_, fun e' p hp => ?_⟩
      · rcases getElem?_set_cases hj with ⟨-, hnew⟩ | ⟨hne, hold⟩
        · cases hnew
        · refine hfiller hold fun hji => ?_
          subst hji
          have hsame := (hs.filler e' j hold).symm.trans hcall
          cases hsame
          exact absurd rfl hne
      · rcases getElem?_set_cases hp with ⟨-, hnew⟩ | ⟨-, hold⟩
        · cases hnew
          rfl
        · exact hs.filled e' p hold
  | waited => exact hs
  | @went e p hcall he =>
      refine ⟨hs.indexed, hstages, fun e' j hj => hfiller hj fun hji => ?_, hs.filled⟩
      subst hji
      have hsame := (hs.filler e' j hj).symm.trans hcall
      cases hsame
      have hboth := he.symm.trans hj
      cases hboth
  | looked hcall =>
      refine ⟨hs.indexed, hstages, fun e j hj => hfiller hj fun hji => ?_, hs.filled⟩
      exact absurd hji (hcalled hcall (by simp) hj)
  | rested => exact hs

end Moved

/-! ## Schedules -/

section Schedule

variable [DecidableEq ι] [BEq κ] (h : Hashing κ) {requests : ι → Request} {s : State κ ι}

theorem step_sound (hs : Sound requests s) (event : Event ι) :
    Sound requests (s.step h requests event) := by
  cases event with
  | move i => exact (move_moved h hs i).sound hs
  | clear => exact ⟨fun _ _ hmem => absurd hmem List.not_mem_nil, hs.stages, hs.filler, hs.filled⟩

theorem after_sound (requests : ι → Request) (schedule : Nat → Event ι) (n : Nat) :
    Sound requests (after h requests schedule n) := by
  induction n with
  | zero => exact start_sound requests
  | succ n ih => exact step_sound h ih (schedule n)

omit [DecidableEq ι] [BEq κ] in
theorem Sound.kept_sound (hs : Sound requests s) : s.kept.Sound := by
  rintro ⟨key, p⟩ hmem
  obtain ⟨e, he⟩ := mem_kept hmem
  exact hs.filled e p he

theorem step_grown (hs : Sound requests s) (event : Event ι) :
    Grown s.entries (s.step h requests event).entries := by
  cases event with
  | move i => exact (move_moved h hs i).grown
  | clear => exact .refl _

theorem step_calls_of_ne (hs : Sound requests s) {event : Event ι} {i : ι}
    (hne : event ≠ .move i) : (s.step h requests event).calls i = s.calls i := by
  cases event with
  | move j => exact (move_moved h hs j).calls_of_ne fun hji => hne (hji ▸ rfl)
  | clear => rfl

end Schedule

/-! ## A call by itself -/

/-- Every entry that can be found is filled. -/
def Idle (s : State κ ι) : Prop :=
  ∀ key e, (key, e) ∈ s.index → ∃ p, s.entries[e]? = some (.filled p)

theorem Idle.lookup_kept [BEq κ] {s : State κ ι} (hidle : s.Idle) (key : κ) :
    s.kept.lookup key = (s.index.lookup key).bind fun e => s.entries[e]?.bind Entry.program? := by
  obtain ⟨index, entries, calls⟩ := s
  simp only [kept, Idle] at hidle ⊢
  induction index with
  | nil => rfl
  | cons entry rest ih =>
      obtain ⟨k, e⟩ := entry
      obtain ⟨p, hp⟩ := hidle k e List.mem_cons_self
      have hrest := ih fun key e hmem => hidle key e (List.mem_cons_of_mem _ hmem)
      have hprogram : entries[e]?.bind Entry.program? = some p := program?_eq_some.mpr hp
      simp only [List.filterMap_cons, hprogram, Option.map_some, List.lookup_cons]
      split
      · simp [hprogram]
      · exact hrest

theorem kept_append {s : State κ ι} (hidle : s.Idle) (key : κ) (p : Program) (calls : ι → Stage) :
    kept { index := (key, s.entries.length) :: s.index
           entries := s.entries ++ [.filled p]
           calls } = (key, p) :: s.kept := by
  have hlast : (s.entries ++ [.filled p])[s.entries.length]?.bind Entry.program? = some p := by
    simp [Entry.program?]
  simp only [kept, List.filterMap_cons, hlast, Option.map_some, List.cons.injEq, true_and]
  refine List.filterMap_congr ?_
  rintro ⟨k, e⟩ hmem
  obtain ⟨p', hp'⟩ := hidle k e hmem
  rw [List.getElem?_append_left (List.getElem?_eq_some_iff.mp hp').1]

section Alone

variable [DecidableEq ι] [BEq κ] (h : Hashing κ) (q : Request) (i : ι) {s : State κ ι}
  (hidle : s.Idle) (hcall : s.calls i = .called)
include hidle hcall

theorem alone_of_found {e : Nat} (hlookup : s.index.lookup (h.key q.source q.limit) = some e) :
    ∃ p, s.kept.lookup (h.key q.source q.limit) = some p ∧
      (move h q i)^[4] s =
        s.put i (.returned (if Cache.isFor p q.source q.limit then p else q.program)) := by
  obtain ⟨key, hmem⟩ := Cache.mem_of_lookup hlookup
  obtain ⟨p, hp⟩ := hidle key e hmem
  refine ⟨p, ?_, ?_⟩
  · rw [hidle.lookup_kept, hlookup]
    exact program?_eq_some.mpr hp
  · simp [move, hcall, hlookup, hp, put]

omit hidle in
theorem alone_of_new (hlookup : s.index.lookup (h.key q.source q.limit) = none) :
    (move h q i)^[4] s =
      { s.put i (.returned q.program) with
        index := (h.key q.source q.limit, s.entries.length) :: s.index
        entries := s.entries ++ [.filled q.program] } := by
  simp [move, hcall, hlookup, put]

/-- A caller that nobody interrupts is given what a look-up in the cache gives, and leaves the same
cache behind. -/
theorem alone_eq_compile :
    let found := Cache.compile h s.kept q.source q.limit
    ((move h q i)^[4] s).calls i = .returned found.program ∧
      ((move h q i)^[4] s).kept = found.cache := by
  intro found
  cases hlookup : s.index.lookup (h.key q.source q.limit) with
  | none =>
      have hkept : s.kept.lookup (h.key q.source q.limit) = none := by
        rw [hidle.lookup_kept, hlookup]
        rfl
      rw [alone_of_new h q i hcall hlookup]
      simp only [found, Cache.compile, hkept]
      exact ⟨put_calls_self s i _, kept_append hidle _ _ _⟩
  | some e =>
      obtain ⟨p, hkept, halone⟩ := alone_of_found h q i hidle hcall hlookup
      rw [halone]
      simp only [found, Cache.compile, hkept]
      split
      · exact ⟨put_calls_self s i _, rfl⟩
      · exact ⟨put_calls_self s i _, rfl⟩

end Alone
end State

end Callers

end Scribe
