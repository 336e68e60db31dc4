import Scribe.Proofs.Prompt.Cursor

/-!
# Trying candidates one after the other

Each candidate takes the place of the one before it, and the word ends where that one ended. So the
line before the word and the line behind it stay as they were, however often and in whichever
direction candidates are tried, and the line that was there before the first one comes back.
-/

namespace Scribe

namespace LineInput

/-- A text that a line can hold: characters that are kept as they are, and no more than there is
room for. -/
def Holds (text : Bytes) : Prop :=
  ∃ cs : List Char, text = Bytes.ofChars cs ∧ (∀ c ∈ cs, isPlain c = true) ∧ cs.length ≤ capacity

variable {ε : Type} [LineInput ε] [LawfulLineInput ε]

theorem bytes_setBytes {text : Bytes} (h : Holds text) (e : ε) :
    bytes (setBytes e text) = text := by
  obtain ⟨cs, rfl, hplain, hroom⟩ := h
  rw [bytes, LawfulLineInput.text_setBytes e hplain, List.take_of_length_le hroom]

/-- What a line holds it can hold again. -/
theorem text_setBytes_bytes (e e' : ε) : text (setBytes e (bytes e')) = text e' := by
  rw [bytes, LawfulLineInput.text_setBytes e (LawfulLineInput.isPlain_of_mem e'),
    List.take_of_length_le (LawfulLineInput.length_text_le e')]

end LineInput

namespace Prompt

variable {ε : Type} [Parts ε]

/-! ## Places in a round of candidates -/

/-- Where the first candidate is looked for. -/
def Direction.first (count : Nat) : Direction → Int
  | .forward => 0
  | .backward => count - 1

def Direction.stride : Direction → Int
  | .forward => 1
  | .backward => -1

/-- The place among `count` candidates, arranged in a ring, to which steps from `place` lead. -/
def ringPlace (count : Nat) (place : Int) (steps : List Direction) : Nat :=
  ((place + (steps.map Direction.stride).sum) % count).toNat

section Ring

variable {count : Nat} (hcount : 0 < count)
include hcount

omit hcount in
theorem ringPlace_nil {i : Nat} (hi : i < count) : ringPlace count i [] = i := by
  rw [ringPlace, List.map_nil, List.sum_nil, add_zero, Int.emod_eq_of_lt (by omega) (by omega),
    Int.toNat_natCast]

theorem next_none (d : Direction) : (d.next none count : Int) = d.first count % count := by
  cases d with
  | forward => simp [Direction.next, Direction.first]
  | backward =>
      simp only [Direction.next, Direction.first]
      rw [Int.emod_eq_of_lt (by omega) (by omega)]
      omega

theorem next_some (d : Direction) (i : Nat) :
    (d.next (some i) count : Int) = (i + d.stride) % count := by
  cases d with
  | forward => simp [Direction.next, Direction.stride]
  | backward =>
      have hround : ((i + count - 1 : Nat) : Int) = i + -1 + count := by omega
      simp only [Direction.next, Direction.stride]
      rw [Int.natCast_emod, hround, Int.add_emod_right]

theorem ringPlace_first (d : Direction) (steps : List Direction) :
    ringPlace count (d.next none count) steps = ringPlace count (d.first count) steps := by
  rw [ringPlace, ringPlace, next_none hcount, Int.emod_add_emod]

theorem ringPlace_cons (d : Direction) (i : Nat) (steps : List Direction) :
    ringPlace count i (d :: steps) = ringPlace count (d.next (some i) count) steps := by
  rw [ringPlace, ringPlace, next_some hcount, Int.emod_add_emod, List.map_cons, List.sum_cons,
    add_assoc]

end Ring

/-! ## Trying a candidate -/

/-- The line with a text in place of the word. -/
def lineWith (p : Prompt ε) (text : Bytes) : Bytes :=
  p.line.take p.word.start ++ text ++ p.line.drop p.word.finish

def WordFits (p : Prompt ε) : Prop :=
  p.word.start ≤ p.word.finish ∧ p.word.finish ≤ p.line.length

/-- In `q` the candidate `m` is tried, in place of the word of `p`, and the line of `p` is
remembered. -/
structure Tries (p q : Prompt ε) (i : Nat) (m : Fuzzy.Match) : Prop where
  candidate : p.found[i]? = some m
  cycling : q.cycling = true
  found : q.found = p.found
  selected : q.selected = some i
  untried : q.untried = (p.line, p.cursor)
  word : q.word = ⟨p.word.start, p.word.start + m.text.length⟩
  line : q.line = p.lineWith m.text

/-- A candidate tried from `q` is tried as from `p`, where the one before it, if there is one, is
`selected`. -/
structure Leads (p q : Prompt ε) (selected : Option Nat) : Prop where
  found : q.found = p.found
  selected : (if q.cycling then q.selected else none) = selected
  untried : (if q.cycling then q.untried else (q.line, q.cursor)) = (p.line, p.cursor)
  start : q.word.start = p.word.start
  fits : q.WordFits
  line : ∀ text, q.lineWith text = p.lineWith text

variable {p q r : Prompt ε} {i : Nat} {m : Fuzzy.Match}

theorem leads_self (hidle : p.cycling = false) (hfits : p.WordFits) : Leads p p none where
  found := rfl
  selected := by simp [hidle]
  untried := by simp [hidle]
  start := rfl
  fits := hfits
  line _ := rfl

/-- Another candidate takes the place of the one that is tried. -/
theorem Tries.leads (h : Tries p q i m) (hfits : p.WordFits) : Leads p q (some i) := by
  have hfront : (p.line.take p.word.start).length = p.word.start :=
    List.length_take_of_le (Nat.le_trans hfits.1 hfits.2)
  have hhead : (p.line.take p.word.start ++ m.text).length =
      p.word.start + m.text.length := by
    rw [List.length_append, hfront]
  constructor
  case found => exact h.found
  case selected => rw [h.cycling, if_pos rfl, h.selected]
  case untried => rw [h.cycling, if_pos rfl, h.untried]
  case start => rw [h.word]
  case fits =>
    simp only [WordFits, h.word, h.line, lineWith, List.length_append, hfront]
    omega
  case line =>
    intro text
    simp only [lineWith, h.line, h.word]
    rw [List.drop_left' hhead, List.append_assoc _ m.text, List.take_left' hfront]

def trying (p : Prompt ε) (d : Direction) (m : Fuzzy.Match) : Prompt ε :=
  { p.replaced m.text with
    cycling := true
    untried := if p.cycling then p.untried else (p.line, p.cursor)
    selected := some (d.next (if p.cycling then p.selected else none) p.found.length) }

theorem cycle_eq_trying {d : Direction} (hseveral : 2 ≤ p.found.length) (hfits : p.WordFits)
    (hm : p.candidate? d = some m) : p.cycle d = some (p.trying d m) := by
  have hstart := Nat.le_trans hfits.1 hfits.2
  unfold cycle
  split
  · next hnil => simp [hnil] at hseveral
  · next hone => simp [hone] at hseveral
  · rw [candidate?] at hm
    simp only [hm]
    exact if_pos ⟨hstart, hfits.2⟩

theorem step_eq_trying {d : Direction} (hseveral : 2 ≤ p.found.length) (hfits : p.WordFits)
    (hm : p.candidate? d = some m) : p.step (.key d.key) = some (p.trying d m) := by
  have hhandle : p.handle (.key d.key) = quiet (p.cycle d) := by cases d <;> rfl
  have hshown : (p.trying d m).status ≠ none := by
    -- While candidates are tried, the line below the input shows them and not the word.
    rw [Ne, status_eq_none_iff (Nat.le_add_right ..)]
    rintro ⟨⟨-, -, -, hidle, -⟩, -⟩
    cases hidle
  obtain ⟨line, hline⟩ := Option.ne_none_iff_exists'.mp hshown
  rw [step, hhandle, cycle_eq_trying hseveral hfits hm]
  simp only [quiet, Option.map_some, hline]

theorem Leads.step [LawfulLineInput ε] {selected : Option Nat} (h : Leads p q selected)
    (hseveral : 2 ≤ p.found.length) {d : Direction}
    (hholds : ∀ m ∈ p.found[d.next selected p.found.length]?,
      LineInput.Holds (p.lineWith m.text)) :
    ∃ r m, q.step (.key d.key) = some r ∧ Tries p r (d.next selected p.found.length) m := by
  have hnext : d.next selected p.found.length < p.found.length := next_lt d selected (by omega)
  obtain ⟨m, hm⟩ : ∃ m, p.found[d.next selected p.found.length]? = some m :=
    ⟨_, List.getElem?_eq_getElem hnext⟩
  have hkept := hholds m hm
  have hcandidate : q.candidate? d = some m := by rw [candidate?, h.selected, h.found, hm]
  have hstep := step_eq_trying (h.found ▸ hseveral) h.fits hcandidate
  have hline : (q.trying d m).line = p.lineWith m.text := by
    rw [← h.line] at hkept ⊢
    change (q.replaced m.text).line = _
    rw [replaced_line]
    exact LineInput.bytes_setBytes hkept q.editor
  refine ⟨q.trying d m, m, hstep, hm, rfl, h.found, ?_, h.untried, ?_, hline⟩
  · rw [trying, h.selected, h.found]
  · rw [← h.start]
    rfl

def keys (steps : List Direction) : List Event := steps.map fun d => .key d.key

/-- However the trying goes on, the candidate at the place it comes to stands in the line. -/
theorem Tries.run [LawfulLineInput ε] (h : Tries p q i m) (hfits : p.WordFits)
    (hseveral : 2 ≤ p.found.length) {steps : List Direction}
    (hholds : ∀ passed, passed <+: steps → ∀ n ∈ p.found[ringPlace p.found.length i passed]?,
      LineInput.Holds (p.lineWith n.text)) :
    ∃ r n, q.run (keys steps) = some r ∧ Tries p r (ringPlace p.found.length i steps) n := by
  have hcount : 0 < p.found.length := by omega
  induction steps generalizing q i m with
  | nil =>
      have hi : i < p.found.length := (List.getElem?_eq_some_iff.mp h.candidate).1
      rw [ringPlace_nil hi]
      exact ⟨q, m, rfl, h⟩
  | cons d steps ih =>
      have hplace := ringPlace_cons hcount d i
      have hnext := hholds [d] (by simp)
      rw [hplace, ringPlace_nil (next_lt d (some i) hcount)] at hnext
      obtain ⟨r, n, hstep, hr⟩ := (h.leads hfits).step hseveral hnext
      have hlater : ∀ passed, passed <+: steps →
          ∀ n ∈ p.found[ringPlace p.found.length (d.next (some i) p.found.length) passed]?,
            LineInput.Holds (p.lineWith n.text) := by
        intro passed hpassed
        rw [← hplace]
        exact hholds (d :: passed) ((List.prefix_cons_inj d).mpr hpassed)
      rw [hplace, keys, List.map_cons, run_cons, hstep, Option.bind_some]
      exact ih hr hlater

/-! ## Giving up -/

theorem refresh_editor {confirm : Bool} (h : p.refresh confirm = some q) :
    q.editor = p.editor ∧ q.cycling = p.cycling := by
  unfold refresh at h
  split at h
  · cases h
    exact ⟨rfl, rfl⟩
  · simp only at h
    split at h
    · cases h
    · cases h
      exact ⟨rfl, rfl⟩

/-- The escape key brings back the line as it was before the first candidate, and the cursor. -/
theorem Tries.escape [LawfulLineInput ε] (h : Tries p q i m) :
    ∃ r, q.step (.key .escape) = some r ∧ r.text = p.text ∧ r.cursor = p.cursor ∧
      r.cycling = false := by
  obtain ⟨r, hr, hsound⟩ := refresh_sound (p := { q with
    cycling := false
    editor := LineInput.moveTo (LineInput.setBytes q.editor q.untried.1) q.untried.2 }) rfl false
  obtain ⟨heditor, hidle⟩ := refresh_editor hr
  obtain ⟨line, hline⟩ := Option.ne_none_iff_exists'.mp hsound.status_ne_none
  have htext : LineInput.text (LineInput.setBytes q.editor p.line) = p.text :=
    LineInput.text_setBytes_bytes q.editor p.editor
  have hinside : p.cursor ≤ p.text.length := LawfulLineInput.cursor_le p.editor
  rw [h.untried] at heditor
  refine ⟨r, ?_, ?_, ?_, hidle⟩
  · simp only [step, handle, press, h.cycling, if_true, hr, quiet, Option.map_some, hline]
  · rw [Prompt.text, heditor, LawfulLineInput.text_moveTo, htext]
  · rw [cursor, heditor, LawfulLineInput.cursor_moveTo, htext, Nat.min_eq_left hinside]

/-! ## The states from which candidates are tried -/

/-- Where there are candidates to choose from, and none is tried yet, the word lies within the
line. -/
def Ready (p : Prompt ε) : Prop := p.cycling = false → 2 ≤ p.found.length → p.WordFits

theorem Recomputed.ready (h : p.Recomputed) : p.Ready := by
  intro _ _
  rw [WordFits, h.2]
  exact ⟨Word.around_ordered .., Word.around_finish_le ..⟩

theorem ready_of_none (h : p.found = []) : p.Ready := by
  intro _ hseveral
  rw [h] at hseveral
  cases hseveral

theorem replaceWord_cycling {text : Bytes} (h : p.replaceWord text = some q) :
    q.cycling = p.cycling := by
  simp only [replaceWord] at h
  split at h
  · cases h
    rfl
  · cases h

theorem Ready.cycle {d : Direction} (hp : p.Ready) (h : p.cycle d = some q) : q.Ready := by
  by_cases hseveral : 2 ≤ p.found.length
  · obtain ⟨i, untried, m, hcycle⟩ := cycle_several d hseveral
    rw [hcycle] at h
    intro hidle _
    rw [replaceWord_cycling h] at hidle
    cases hidle
  · unfold Prompt.cycle at h
    split at h
    · cases h
      exact hp
    · obtain ⟨r, -, rfl⟩ := Option.map_eq_some_iff.mp h
      exact ready_of_none rfl
    · next hnil hone =>
        rcases hfound : p.found with _ | ⟨m, _ | ⟨n, rest⟩⟩
        · exact absurd hfound hnil
        · exact absurd hfound (hone m)
        · simp [hfound] at hseveral

/-- A line that is entered leaves no candidates behind. -/
theorem Ready.enterLine (hp : p.Ready) : p.enterLine.1.Ready := by
  have hobey : ∀ (r : Prompt ε) c, (r.obey c).1.found = r.found := fun r c => by cases c <;> rfl
  unfold Prompt.enterLine
  dsimp only
  split
  · exact hp
  · split
    · exact ready_of_none (hobey _ _)
    · exact ready_of_none rfl

theorem Ready.press {k : Key} {effects : List Effect} (hconsistent : p.Consistent) (hp : p.Ready)
    (h : p.press k = some (q, effects)) : q.Ready := by
  by_cases hk : k.rewrites p = true
  · obtain ⟨r, effects', hpress, hr⟩ := press_recomputed hconsistent hk
    cases hpress.symm.trans h
    exact hr.ready
  · cases k with
    | tab => exact hp.cycle (quiet_eq_some h)
    | backTab => exact hp.cycle (quiet_eq_some h)
    | enter =>
        have hplain : ¬ (p.cycling && !p.found.isEmpty) = true := hk
        have hentered := hp.enterLine
        rw [Prompt.press, if_neg hplain] at h
        rw [Option.some.inj h] at hentered
        exact hentered
    | up =>
        have hfirst : ¬ 0 < p.place := by simpa [Key.rewrites] using hk
        rw [Prompt.press, older, if_neg hfirst] at h
        cases h
        exact hp
    | interrupt =>
        have hempty : p.text.isEmpty = true := by simpa [Key.rewrites] using hk
        rw [Prompt.press, if_pos hempty] at h
        cases h
        exact hp
    | endOfInput =>
        rw [Prompt.press] at h
        split at h
        · cases h
          exact hp
        · cases h
          exact hp
    | typed cs => exact absurd rfl hk
    | edit command => exact absurd rfl hk
    | down => exact absurd rfl hk
    | escape => exact absurd rfl hk

theorem Ready.handle {e : Event} {effects : List Effect} (hconsistent : p.Consistent) (hp : p.Ready)
    (h : p.handle e = some (q, effects)) : q.Ready := by
  cases e with
  | key k => exact hp.press hconsistent h
  | resize width =>
      cases h
      exact hp
  | edited result =>
      rw [Prompt.handle, Option.some.injEq] at h
      cases result <;> cases h <;> exact hp
  | other =>
      cases h
      exact hp

/-- A prompt comes to this state. -/
def Reachable (p : Prompt ε) : Prop :=
  ∃ session history events, (start session history).after events = some p

theorem Reachable.wordFits (h : p.Reachable) (hidle : p.cycling = false)
    (hseveral : 2 ≤ p.found.length) : p.WordFits := by
  obtain ⟨session, history, events, hp⟩ := h
  have hstart : (start session history : Prompt ε).Consistent ∧
      (start session history : Prompt ε).Ready :=
    ⟨start_consistent session history, ready_of_none rfl⟩
  have hready : p.Consistent ∧ p.Ready := by
    apply after_keeps ?_ hstart hp
    intro q e r effects hq hhandle
    exact ⟨hq.1.handle hhandle, hq.2.handle hq.1 hhandle⟩
  exact hready.2 hidle hseveral

/-- Of several candidates the first or the last is tried first, and then each step leads to a
neighbour in the ring of candidates. As long as a line can hold what the steps lead to, the line is
as it was before, with the selected candidate in place of the word, and the escape key brings back
that line and the cursor. This goes for every state in which no candidate is tried and the word
lies within the line, and so it does in all that a prompt comes to. -/
theorem word_tried_and_restored [LawfulLineInput ε] (hstate : p.Reachable ∨ p.WordFits)
    (hidle : p.cycling = false) (hseveral : 2 ≤ p.found.length) (d : Direction)
    (steps : List Direction)
    (hholds : ∀ passed, passed <+: steps →
      ∀ m ∈ p.found[ringPlace p.found.length (d.first p.found.length) passed]?,
        LineInput.Holds (p.lineWith m.text)) :
    ∃ q m r, p.run (keys (d :: steps)) = some q ∧ q.cycling = true ∧ q.found = p.found ∧
      q.selected = some (ringPlace p.found.length (d.first p.found.length) steps) ∧
      q.found[ringPlace p.found.length (d.first p.found.length) steps]? = some m ∧
      q.line = p.lineWith m.text ∧
      q.step (.key .escape) = some r ∧ r.text = p.text ∧ r.cursor = p.cursor ∧
      r.cycling = false := by
  have hfits : p.WordFits := hstate.elim (·.wordFits hidle hseveral) id
  have hcount : 0 < p.found.length := by omega
  have hplace := ringPlace_first hcount d
  have hfirst := hholds [] List.nil_prefix
  rw [← hplace, ringPlace_nil (next_lt d none hcount)] at hfirst
  obtain ⟨q₁, m₁, hstep, hq₁⟩ := (leads_self hidle hfits).step hseveral hfirst
  simp only [← hplace] at hholds ⊢
  obtain ⟨q, m, hrun, hq⟩ := hq₁.run hfits hseveral hholds
  obtain ⟨r, hr, hrestored⟩ := hq.escape
  refine ⟨q, m, r, ?_, hq.cycling, hq.found, hq.selected, ?_, hq.line, hr, hrestored⟩
  · rw [keys, List.map_cons, run_cons, hstep, Option.bind_some]
    exact hrun
  · rw [hq.found]
    exact hq.candidate

/-- The last of four candidates is tried, then the first. -/
theorem last_candidate_tried_first :
    let events : List Event := [.key (.typed "print a;".toList), .key (.edit .left)]
    ∃ p q r : Prompt, (start (.start {} []) { archive := .memory }).after events = some p ∧
      p.line = utf8 "print a;" ∧ p.run (keys [.backward, .forward]) = some q ∧
      q.selected = some 0 ∧ q.line = utf8 "print and;" ∧
      q.step (.key .escape) = some r ∧ r.text = p.text ∧ r.cursor = p.cursor ∧
      r.cycling = false := by
  intro events
  have hshown : ((start (.start {} []) { archive := .memory } : Prompt).after events).map
      (fun p => (p.cycling, p.found.map (·.text), p.word, p.line)) =
      some (false, [utf8 "and", utf8 "var", utf8 "false", utf8 "class"], ⟨6, 7⟩,
        utf8 "print a;") := by
    cbv
  obtain ⟨p, hp, hstate⟩ := Option.map_eq_some_iff.mp hshown
  simp only [Prod.mk.injEq] at hstate
  obtain ⟨hidle, htexts, hword, hbytes⟩ := hstate
  have hcount : p.found.length = 4 := by
    have hlength := congrArg List.length htexts
    rwa [List.length_map] at hlength
  have hline : ∀ text, p.lineWith text = utf8 "print " ++ text ++ utf8 ";" := by
    intro text
    rw [lineWith, hword, hbytes]
    cbv
  have hholds : ∀ text ∈ p.found.map (·.text), LineInput.Holds (p.lineWith text) := by
    rw [htexts]
    simp only [hline, List.forall_mem_cons, List.not_mem_nil, IsEmpty.forall_iff, implies_true,
      and_true]
    exact ⟨⟨"print and;".toList, rfl, List.all_eq_true.mp rfl, by decide⟩,
      ⟨"print var;".toList, rfl, List.all_eq_true.mp rfl, by decide⟩,
      ⟨"print false;".toList, rfl, List.all_eq_true.mp rfl, by decide⟩,
      ⟨"print class;".toList, rfl, List.all_eq_true.mp rfl, by decide⟩⟩
  obtain ⟨q, m, r, hrun, -, hfound, hselected, hm, hq, hr, hrestored⟩ :=
    word_tried_and_restored (.inl ⟨_, _, events, hp⟩) hidle (by omega) .backward [.forward]
      fun passed _ m hm => hholds m.text (List.mem_map_of_mem (List.mem_of_getElem? hm))
  have hplace : ringPlace 4 (Direction.first 4 .backward) [.forward] = 0 := by decide
  rw [hcount, hplace] at hselected hm
  have hand : m.text = utf8 "and" := by
    have hfirst := congrArg (·[0]?) htexts
    rw [hfound] at hm
    simpa [hm] using hfirst
  refine ⟨p, q, r, hp, hbytes, hrun, hselected, ?_, hr, hrestored⟩
  rw [hq, hline, hand]
  rfl

end Prompt

end Scribe
