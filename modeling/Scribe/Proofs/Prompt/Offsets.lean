import Scribe.Prompt
import Scribe.Proofs.Prompt.LineInput

/-!
# The word within the line

A prompt remembers where the word at the cursor stands. Whatever changes the line computes the
word anew, except the taking of a candidate, which supposes that the editor keeps the candidate
whole. A line that is full does not, and the word then reaches beyond its end. The prompt breaks
where it uses such a word, and nowhere else.
-/

namespace Scribe

/-! ## Words -/

namespace Word

theorem length_leading_le (rs : List Rune) : (leading rs).length ≤ (Bytes.ofRunes rs).length := by
  have hparts := congrArg Bytes.ofRunes
    (List.takeWhile_append_dropWhile (p := (!isBoundary ·.char)) (l := rs))
  rw [Bytes.ofRunes_append] at hparts
  have hlength := congrArg List.length hparts
  rw [List.length_append] at hlength
  simp only [leading]
  omega

theorem around_ordered (text : Bytes) (cursor : Int) :
    (around text cursor).start ≤ (around text cursor).finish := by
  simp only [around]
  omega

theorem around_finish_le (text : Bytes) (cursor : Int) :
    (around text cursor).finish ≤ text.length := by
  have hplace : clamp text cursor ≤ text.length := Nat.min_le_right ..
  have hrest := length_leading_le (Bytes.runes (text.drop (clamp text cursor)))
  rw [Bytes.ofRunes_runes, List.length_drop] at hrest
  simp only [around]
  omega

theorem Span.slice?_eq_none_iff {s : Span} {text : Bytes} (h : s.start ≤ s.finish) :
    s.slice? text = none ↔ text.length < s.finish := by
  simp only [slice?]
  split <;> simp <;> omega

end Word

namespace Prompt

variable {ε : Type} [Parts ε]

/-! ## Runs -/

/-- Handles an event and shows the prompt as it is then. -/
def step (p : Prompt ε) (e : Event) : Option (Prompt ε) :=
  match p.handle e with
  | none => none
  | some (q, _) => q.status.map fun _ => q

def run (p : Prompt ε) (events : List Event) : Option (Prompt ε) := events.foldlM step p

def Event.isCompletion : Event → Bool
  | .key .tab | .key .backTab => true
  | _ => false

/-- The line below the input tells about the word at the cursor. -/
def ReadsWord (p : Prompt ε) : Prop :=
  p.quitting = false ∧ p.history.size ≤ p.place ∧ Bytes.isBlank p.line = false ∧
    p.cycling = false ∧ p.found.length ≤ 1

/-- The line with a text in place of the word, as the editor keeps it. -/
def spliced (p : Prompt ε) (text : Bytes) : ε :=
  LineInput.setBytes p.editor (p.line.take p.word.start ++ text ++ p.line.drop p.word.finish)

/-- The editor keeps less of the line than would reach the end of the text. -/
def Cuts (p : Prompt ε) (text : Bytes) : Prop :=
  (LineInput.bytes (p.spliced text)).length < p.word.start + text.length

/-- A text of characters that are kept as they are is cut exactly if it does not end within the
capacity of a line. -/
theorem cuts_iff [LawfulLineInput ε] {p : Prompt ε} {before text after : List Char}
    (hbefore : p.line.take p.word.start = Bytes.ofChars before)
    (hafter : p.line.drop p.word.finish = Bytes.ofChars after)
    (hstart : p.word.start ≤ p.line.length)
    (hplain : ∀ c ∈ before ++ text ++ after, LineInput.isPlain c = true) :
    p.Cuts (Bytes.ofChars text) ↔ LineInput.capacity < before.length + text.length := by
  have hkept : LineInput.bytes (p.spliced (Bytes.ofChars text)) =
      Bytes.ofChars ((before ++ text ++ after).take LineInput.capacity) := by
    rw [spliced, hbefore, hafter, ← Bytes.ofChars_append, ← Bytes.ofChars_append,
      LineInput.bytes, LawfulLineInput.text_setBytes _ hplain]
  have hend : p.word.start + (Bytes.ofChars text).length =
      (Bytes.ofChars (before ++ text)).length := by
    rw [Bytes.ofChars_append, ← hbefore, List.length_append, List.length_take_of_le hstart]
  rw [Cuts, hkept, hend, ← List.length_append]
  constructor
  · intro hshorter
    -- A line that holds the text is not shorter than the text.
    by_contra hroom
    rw [List.take_append, List.take_of_length_le (Nat.not_lt.mp hroom), Bytes.ofChars_append,
      List.length_append] at hshorter
    omega
  · intro hbeyond
    rw [List.take_append_of_le_length (Nat.le_of_lt hbeyond)]
    exact Bytes.length_ofChars_take_lt hbeyond

/-- Asking for a candidate breaks the prompt. -/
inductive Breaks (p : Prompt ε) : Prop where
  /-- The only candidate is cut, and the line below the input is to tell about it. -/
  | sole {m : Fuzzy.Match} (hfound : p.found = [m]) (hcut : p.Cuts m.text)
      (hpresent : p.quitting = false) (hlatest : p.history.size ≤ p.place)
      (htext : Bytes.isBlank (LineInput.bytes (p.spliced m.text)) = false)
  /-- The candidate that is tried was cut, and another one is to take its place. -/
  | another (hcycling : p.cycling = true) (hcut : p.line.length < p.word.finish)

/-- What holds between two events. -/
structure Sound (p : Prompt ε) : Prop where
  ordered : p.word.start ≤ p.word.finish
  reach : p.word.finish ≤ p.line.length ∨ p.cycling = true ∨
    (p.found = [] ∧ ¬ p.ReadsWord)
  several : p.cycling = true → 2 ≤ p.found.length

variable {p q : Prompt ε}

theorem start_sound (session : Session) (history : History) :
    (start session history : Prompt ε).Sound where
  ordered := Nat.le_refl 0
  reach := .inl (Nat.zero_le _)
  several := by simp [start]

namespace Sound

theorem finish_le (h : p.Sound) (hread : p.ReadsWord) :
    p.word.finish ≤ p.line.length := by
  rcases h.reach with hfits | hcycling | ⟨-, hunread⟩
  · exact hfits
  · exact absurd hcycling (by simp [hread.2.2.2.1])
  · exact absurd hread hunread

theorem finish_le_of_sole (h : p.Sound) {m : Fuzzy.Match} (hfound : p.found = [m]) :
    p.word.finish ≤ p.line.length ∧ p.cycling = false := by
  have hcycling : p.cycling = false := by
    by_cases hc : p.cycling = true
    · have htwo := h.several hc
      rw [hfound, List.length_singleton] at htwo
      omega
    · simpa using hc
  rcases h.reach with hfits | htried | ⟨hnone, -⟩
  · exact ⟨hfits, hcycling⟩
  · exact absurd htried (by simp [hcycling])
  · exact absurd (hfound.symm.trans hnone) (by simp)

end Sound

/-! ## What is shown -/

theorem statusLine_eq_none_iff :
    p.statusLine = none ↔
      p.history.size ≤ p.place ∧ Bytes.isBlank p.line = false ∧ p.cycling = false ∧
        p.found.length ≤ 1 ∧ p.word.slice? p.line = none := by
  unfold statusLine
  split
  · next hviewed => simp [Nat.not_le.mpr hviewed]
  · split
    · next hblank => simp [hblank]
    · split
      · next hbar =>
          refine iff_of_false (by simp) ?_
          rintro ⟨-, -, hidle, hfew, -⟩
          rw [hidle, Bool.false_or, decide_eq_true_eq] at hbar
          omega
      · split <;> simp_all

theorem status_eq_none_iff (hordered : p.word.start ≤ p.word.finish) :
    p.status = none ↔ p.ReadsWord ∧ p.line.length < p.word.finish := by
  unfold status
  split
  · simp_all [ReadsWord]
  · simp_all [statusLine_eq_none_iff, Word.Span.slice?_eq_none_iff hordered, ReadsWord, and_assoc]

theorem Sound.status_ne_none (h : p.Sound) : p.status ≠ none := by
  rw [Ne, status_eq_none_iff h.ordered]
  rintro ⟨hread, hbeyond⟩
  have hfits := h.finish_le hread
  omega

/-! ## Events that compute the word anew -/

theorem refresh_sound (h : p.cycling = false) (confirm : Bool) :
    ∃ q, p.refresh confirm = some q ∧ q.Sound := by
  have hordered := Word.around_ordered p.line p.cursor
  have hfits := Word.around_finish_le p.line p.cursor
  unfold refresh
  rw [if_neg (by simp [h])]
  cases hslice : (Word.around p.line p.cursor).slice? p.line with
  | none =>
      rw [Word.Span.slice?_eq_none_iff hordered] at hslice
      omega
  | some text =>
      simp only [hslice]
      refine ⟨_, rfl, ?_⟩
      exact ⟨hordered, .inl hfits, fun hcycling => absurd (h.symm.trans hcycling) (by decide)⟩

theorem clearLine_sound (p : Prompt ε) : ∃ q, p.clearLine = some q ∧ q.Sound := refresh_sound rfl _

theorem change_sound (p : Prompt ε) (confirm : Bool) (f : ε → ε) :
    ∃ q, p.change confirm f = some q ∧ q.Sound := refresh_sound rfl _

theorem showEntry_sound (h : p.Sound) : ∃ q, p.showEntry = some q ∧ q.Sound := by
  unfold showEntry
  split
  · exact ⟨p, rfl, h⟩
  · exact refresh_sound rfl _

theorem older_sound (h : p.Sound) : ∃ q, p.older = some q ∧ q.Sound := by
  unfold older
  split
  · refine showEntry_sound ⟨h.ordered, h.reach.imp_right (Or.imp_right ?_), h.several⟩
    rintro ⟨hnone, hunread⟩
    refine ⟨hnone, fun hread => hunread ⟨hread.1, ?_, hread.2.2⟩⟩
    exact Nat.le_trans hread.2.1 (Nat.sub_le ..)
  · exact ⟨p, rfl, h⟩

theorem newer_sound (h : p.Sound) : ∃ q, p.newer = some q ∧ q.Sound := by
  unfold newer
  split
  · next hlater =>
      refine showEntry_sound ⟨h.ordered, h.reach.imp_right (Or.imp_right ?_), h.several⟩
      rintro ⟨hnone, -⟩
      exact ⟨hnone, fun hread => absurd hread.2.1 (Nat.not_le.mpr hlater)⟩
  · exact clearLine_sound p

/-! ## Entering a line -/

theorem Sound.obey (h : p.Sound) (c : Command) : (p.obey c).1.Sound := by
  cases c with
  | quit =>
      refine ⟨h.ordered, h.reach.imp_right (Or.imp_right fun hnone => ⟨hnone.1, ?_⟩), h.several⟩
      exact fun hread => Bool.noConfusion hread.1
  | _ => exact ⟨h.ordered, h.reach, h.several⟩

theorem enterLine_sound [LawfulLineInput ε] (h : p.Sound) (hcycling : p.cycling = false) :
    p.enterLine.1.Sound := by
  unfold enterLine
  dsimp only
  split
  · exact h
  · have hcleared : ∀ history place, Sound
        { p with editor := LineInput.setBytes p.editor [], found := [], history, place } := by
      intro history place
      refine ⟨h.ordered, .inr (.inr ⟨rfl, fun hread => ?_⟩), by simp [hcycling]⟩
      have hempty : Bytes.isBlank (LineInput.bytes (LineInput.setBytes p.editor [])) = true := by
        rw [LineInput.bytes, LineInput.text_setBytes_nil]
        simp [Bytes.isBlank, Bytes.ofChars]
      exact absurd (hread.2.2.1.symm.trans hempty) (by decide)
    split
    · exact (hcleared _ _).obey _
    · have hp := hcleared (p.history.write (Bytes.trim p.line)).history
        (p.history.write (Bytes.trim p.line)).history.size
      exact ⟨hp.ordered, hp.reach, hp.several⟩

/-! ## Taking a candidate -/

/-- The prompt behind a candidate that has been put in place of the word. -/
def replaced (p : Prompt ε) (text : Bytes) : Prompt ε :=
  { p with
    editor := LineInput.moveTo (p.spliced text) (p.word.start + text.length)
    word := { p.word with finish := p.word.start + text.length } }

theorem replaced_line [LawfulLineInput ε] (text : Bytes) :
    (p.replaced text).line = LineInput.bytes (p.spliced text) := LineInput.bytes_moveTo _ _

theorem replaceWord_eq (h : p.Sound) (hfits : p.word.finish ≤ p.line.length)
    (text : Bytes) : p.replaceWord text = some (p.replaced text) :=
  if_pos ⟨Nat.le_trans h.ordered hfits, hfits⟩

theorem replaceWord_eq_none (h : p.line.length < p.word.finish) (text : Bytes) :
    p.replaceWord text = none :=
  if_neg fun hfits => absurd hfits.2 (Nat.not_le.mpr h)

theorem next_lt (d : Direction) (selected : Option Nat) {count : Nat} (h : 0 < count) :
    d.next selected count < count := by
  unfold Direction.next
  split
  · exact h
  · omega
  · exact Nat.mod_lt _ h
  · exact Nat.mod_lt _ h

theorem cycle_sole (h : p.Sound) (d : Direction) {m : Fuzzy.Match} (hfound : p.found = [m]) :
    p.cycle d =
      some { p.replaced m.text with cycling := false, selected := none, found := [] } := by
  rw [cycle]
  simp only [hfound]
  rw [replaceWord_eq h (h.finish_le_of_sole hfound).1]
  rfl

/-- Trying one of several candidates puts it in place of the word. -/
theorem cycle_several (d : Direction) (hfound : 2 ≤ p.found.length) :
    ∃ (i : Nat) (untried : Bytes × Nat) (m : Fuzzy.Match),
      p.cycle d =
        { p with cycling := true, untried, selected := some i : Prompt ε }.replaceWord m.text := by
  have hnext : d.next (if p.cycling then p.selected else none) p.found.length < p.found.length :=
    next_lt d _ (by omega)
  unfold cycle
  split
  · next hnil => simp [hnil] at hfound
  · next hone => simp [hone] at hfound
  · simp only [List.getElem?_eq_getElem hnext]
    exact ⟨_, _, _, rfl⟩

section Lawful

variable [LawfulLineInput ε]

theorem cycle_sound (h : p.Sound) (hbreaks : ¬ p.Breaks) (d : Direction) :
    ∃ q, p.cycle d = some q ∧ q.Sound := by
  have hcount : p.found = [] ∨ (∃ m, p.found = [m]) ∨ 2 ≤ p.found.length := by
    rcases p.found with _ | ⟨m, _ | ⟨n, rest⟩⟩
    · exact .inl rfl
    · exact .inr (.inl ⟨m, rfl⟩)
    · exact .inr (.inr (by simp))
  rcases hcount with hnone | ⟨m, hsole⟩ | hseveral
  · refine ⟨p, ?_, h⟩
    rw [cycle, hnone]
  · refine ⟨_, cycle_sole h d hsole, Nat.le_add_right .., ?_, by simp⟩
    by_cases hcut : p.Cuts m.text
    · refine .inr (.inr ⟨rfl, fun hread => hbreaks ?_⟩)
      have htext := hread.2.2.1
      change Bytes.isBlank (p.replaced m.text).line = false at htext
      rw [replaced_line] at htext
      exact .sole hsole hcut hread.1 hread.2.1 htext
    · rw [Cuts, ← replaced_line] at hcut
      exact .inl (Nat.not_lt.mp hcut)
  · obtain ⟨i, untried, m, hcycle⟩ := cycle_several d hseveral
    have hfits : p.word.finish ≤ p.line.length := by
      rcases h.reach with hfits | hcycling | ⟨hnil, -⟩
      · exact hfits
      · exact Nat.not_lt.mp fun hcut => hbreaks (.another hcycling hcut)
      · simp [hnil] at hseveral
    have htried : Sound { p with cycling := true, untried, selected := some i } :=
      ⟨h.ordered, .inl hfits, fun _ => hseveral⟩
    rw [hcycle, replaceWord_eq htried hfits]
    exact ⟨_, rfl, Nat.le_add_right .., .inr (.inl rfl), fun _ => hseveral⟩

theorem Breaks.status_eq_none (hbreaks : p.Breaks) (h : p.Sound) {d : Direction}
    (hcycle : p.cycle d = some q) : q.status = none := by
  cases hbreaks with
  | @sole m hfound hcut hpresent hlatest htext =>
      rw [cycle_sole h d hfound, Option.some.injEq] at hcycle
      subst hcycle
      rw [← replaced_line] at htext
      rw [Cuts, ← replaced_line] at hcut
      rw [status_eq_none_iff (Nat.le_add_right ..)]
      exact ⟨⟨hpresent, hlatest, htext, rfl, Nat.zero_le 1⟩, hcut⟩
  | another hcycling hcut =>
      obtain ⟨i, untried, m, htry⟩ := cycle_several d (h.several hcycling)
      rw [htry] at hcycle
      have hnone := replaceWord_eq_none
        (p := { p with cycling := true, untried, selected := some i }) hcut m.text
      cases hnone.symm.trans hcycle

/-! ## Steps and runs -/

theorem handle_sound (h : p.Sound) {e : Event} (he : e.isCompletion = true → ¬ p.Breaks) :
    ∃ q effects, p.handle e = some (q, effects) ∧ q.Sound := by
  have hquiet : ∀ r : Option (Prompt ε), (∃ q, r = some q ∧ q.Sound) →
      ∃ q effects, quiet r = some (q, effects) ∧ q.Sound := by
    rintro r ⟨q, rfl, hq⟩
    exact ⟨q, [], rfl, hq⟩
  have hquit : ∃ q effects, p.quit = some (q, effects) ∧ q.Sound := ⟨_, _, rfl, h.obey .quit⟩
  cases e with
  | resize width => exact ⟨_, _, rfl, h.ordered, h.reach, h.several⟩
  | other => exact ⟨_, _, rfl, h⟩
  | edited result =>
      refine ⟨_, _, rfl, ?_⟩
      cases result <;> exact ⟨h.ordered, h.reach, h.several⟩
  | key k =>
      rw [handle]
      cases k with
      | enter =>
          rw [press]
          split
          · exact hquiet _ (refresh_sound rfl true)
          · next hplain =>
              refine ⟨_, _, rfl, enterLine_sound h ?_⟩
              by_cases hcycling : p.cycling = true
              · have htwo := h.several hcycling
                cases hfound : p.found with
                | nil => simp [hfound] at htwo
                | cons m rest => simp [hcycling, hfound] at hplain
              · simpa using hcycling
      | tab => exact hquiet _ (cycle_sound h (he rfl) .forward)
      | backTab => exact hquiet _ (cycle_sound h (he rfl) .backward)
      | up => exact hquiet _ (older_sound h)
      | down => exact hquiet _ (newer_sound h)
      | escape =>
          rw [press]
          apply hquiet
          split
          · exact refresh_sound rfl false
          · exact clearLine_sound p
      | interrupt =>
          rw [press]
          split
          · exact hquit
          · exact hquiet _ (clearLine_sound p)
      | endOfInput =>
          rw [press]
          split
          · exact hquit
          · exact ⟨_, _, rfl, h⟩
      | typed cs => exact hquiet _ (change_sound p true _)
      | edit command => exact hquiet _ (change_sound p false _)

theorem step_sound (h : p.Sound) {e : Event} (he : e.isCompletion = true → ¬ p.Breaks) :
    ∃ q, p.step e = some q ∧ q.Sound := by
  obtain ⟨q, effects, hhandle, hq⟩ := handle_sound h he
  obtain ⟨line, hline⟩ := Option.ne_none_iff_exists'.mp hq.status_ne_none
  exact ⟨q, by simp only [step, hhandle, hline, Option.map_some], hq⟩

theorem Breaks.step_eq_none (hbreaks : p.Breaks) (h : p.Sound) {e : Event}
    (he : e.isCompletion = true) : p.step e = none := by
  have hcycle : ∀ d, quiet (p.cycle d) = p.handle e → p.step e = none := by
    intro d hd
    rw [step, ← hd]
    cases hq : p.cycle d with
    | none => rfl
    | some q =>
        simp only [quiet, Option.map_some]
        rw [hbreaks.status_eq_none h hq, Option.map_none]
  unfold Event.isCompletion at he
  split at he
  · exact hcycle .forward rfl
  · exact hcycle .backward rfl
  · cases he

omit [LawfulLineInput ε] in
theorem run_cons (e : Event) (events : List Event) :
    p.run (e :: events) = (p.step e).bind (·.run events) := rfl

/-- From a sound state on. -/
theorem Sound.run_spec (h : p.Sound) (events : List Event) :
    (p.run events = none ↔ ∃ before e after q, events = before ++ e :: after ∧
      e.isCompletion = true ∧ p.run before = some q ∧ q.Breaks) ∧
    ∀ q, p.run events = some q → q.Sound := by
  induction events generalizing p with
  | nil =>
      refine ⟨iff_of_false (by simp [run]) ?_, ?_⟩
      · rintro ⟨before, e, after, q, hsplit, -⟩
        simp at hsplit
      · rintro q hq
        cases hq
        exact h
  | cons e events ih =>
      by_cases hbad : e.isCompletion = true ∧ p.Breaks
      · have hnone : p.run (e :: events) = none := by
          rw [run_cons, hbad.2.step_eq_none h hbad.1, Option.bind_none]
        refine ⟨iff_of_true hnone ⟨[], e, events, p, rfl, hbad.1, rfl, hbad.2⟩, ?_⟩
        rw [hnone]
        rintro q ⟨⟩
      · obtain ⟨r, hstep, hr⟩ := step_sound h fun he hb => hbad ⟨he, hb⟩
        obtain ⟨hbreaks, hsound⟩ := ih hr
        rw [run_cons, hstep, Option.bind_some]
        refine ⟨hbreaks.trans ⟨?_, ?_⟩, hsound⟩
        · rintro ⟨before, f, after, q, rfl, hf, hrun, hq⟩
          refine ⟨e :: before, f, after, q, rfl, hf, ?_, hq⟩
          rw [run_cons, hstep, Option.bind_some, hrun]
        · rintro ⟨before, f, after, q, hsplit, hf, hrun, hq⟩
          rcases before with _ | ⟨g, before⟩
          · cases hrun
            cases hsplit
            exact absurd ⟨hf, hq⟩ hbad
          · cases hsplit
            rw [run_cons, hstep, Option.bind_some] at hrun
            exact ⟨before, f, after, q, rfl, hf, hrun, hq⟩

/-- Whatever happens, a prompt breaks exactly where a candidate is asked for that breaks it. As
long as it does not, the word has its offsets in order and, where it is read, within the line. -/
theorem run_eq_none_iff_breaks (session : Session) (history : History) (events : List Event) :
    (run (start session history : Prompt ε) events = none ↔
      ∃ before e after p, events = before ++ e :: after ∧ e.isCompletion = true ∧
        run (start session history : Prompt ε) before = some p ∧ p.Breaks) ∧
    ∀ p : Prompt ε, run (start session history) events = some p →
      p.word.start ≤ p.word.finish ∧
        (p.ReadsWord → p.word.finish ≤ p.line.length) := by
  have hstart : (start session history : Prompt ε).Sound := start_sound session history
  obtain ⟨hnone, hsound⟩ := hstart.run_spec events
  exact ⟨hnone, fun p hp => ⟨(hsound p hp).ordered, (hsound p hp).finish_le⟩⟩

end Lawful

/-- A candidate taken at the end of a line that has room for it. -/
theorem room_for_candidate :
    let p : Prompt := start (.start {} []) { archive := .memory }
    let events : List Event := [.key (.typed "if prin".toList), .key .tab]
    ∃ q, run p events = some q ∧ q.word = ⟨3, 8⟩ ∧ q.word.start ≤ q.word.finish ∧
      (q.ReadsWord → q.word.finish ≤ q.line.length) := by
  intro p events
  have hword : (run p events).map (·.word) = some ⟨3, 8⟩ := by decide +kernel
  obtain ⟨q, hq, hqword⟩ := Option.map_eq_some_iff.mp hword
  exact ⟨q, hq, hqword, (run_eq_none_iff_breaks _ _ events).2 q hq⟩

/-- A candidate taken where the line has room for all but its last character. -/
theorem full_line_breaks :
    run (start (.start {} []) { archive := .memory } : Prompt)
      [.key (.typed (List.replicate 1020 ' ' ++ "prin".toList)), .key .tab] = none := by
  rw [← Option.isNone_iff_eq_none]
  decide +kernel

end Prompt

end Scribe
