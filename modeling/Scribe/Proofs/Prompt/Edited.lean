import Mathlib
import Scribe.Prompt

/-!
# Edits and their answers

An edit shows the script of the session first, and then what was saved last. It ends with the first
text that is blank, that compiles, or that does not compile and is not to be edited again; only one
that compiles replaces the session. Whether a text is edited again is answered at a prompt, by a
line that is typed. A prompt loses what it reads beyond its line. A terminal returns a single line
from a read, so nothing is lost there and the edit follows the lines that are typed. An input that
is returned at once is lost to all prompts but the first.
-/

namespace Scribe

namespace Edit

/-! ## Answers -/

/-- The next line of an input, without its line feed, and the input behind it. Where the input ends
behind a line without a line feed, so does the line. -/
def nextLine : List Bytes → Option Bytes × List Bytes
  | [] => (none, [])
  | piece :: rest =>
      if piece.isEmpty then (none, rest)
      else
        match piece.dropWhile (· ≠ Bytes.lineFeed) with
        | [] => (some (piece ++ (nextLine rest).1.getD []), (nextLine rest).2)
        | _ :: left =>
            (some (piece.takeWhile (· ≠ Bytes.lineFeed)),
              if left.isEmpty then rest else left :: rest)

/-- The answers that are read from an input one after the other; `none` is the end of input. -/
def answersBy (read : List Bytes → Option Bytes × List Bytes) (input : List Bytes) :
    Nat → Option Bytes
  | 0 => (read input).1
  | k + 1 => answersBy read (read input).2 k

/-- The lines that are typed in answer to the prompts. -/
def typed (input : List Bytes) : Nat → Option Bytes := answersBy nextLine input

/-- What the prompts take for an answer. -/
def heard (input : List Bytes) : Nat → Option Bytes := answersBy answer input

/-- Whether an answer ends the edit: `n` or `no` in any case, or the end of input. -/
def Declines : Option Bytes → Prop
  | none => True
  | some reply =>
      Bytes.trim (Bytes.lower reply) = utf8 "n" ∨ Bytes.trim (Bytes.lower reply) = utf8 "no"

theorem declines_some (reply : Bytes) : Declines (some reply) ↔ accepts reply = false := by
  simp only [accepts, Declines, Bool.not_eq_false', Bool.or_eq_true, decide_eq_true_eq]

/-! ## Attempts -/

def Unsound (saved : Bytes) : Prop :=
  Bytes.isBlank saved = false ∧ (Program.ofSource saved defaultLimit).diagnostics ≠ []

inductive Ends (answer? : Option Bytes) : Bytes → Result → Prop where
  | blank {saved : Bytes} (hblank : Bytes.isBlank saved = true) : Ends answer? saved .cancelled
  | sound {saved : Bytes} (hblank : Bytes.isBlank saved = false)
      (hsound : (Program.ofSource saved defaultLimit).diagnostics = []) :
      Ends answer? saved (.accepted saved)
  | declined {saved : Bytes} (hunsound : Unsound saved) (hdeclines : Declines answer?) :
      Ends answer? saved .declined

theorem Ends.declines {answer? : Option Bytes} {saved : Bytes} {result : Result}
    (h : Ends answer? saved result) (hunsound : Unsound saved) : Declines answer? := by
  cases h with
  | blank hblank => exact absurd (hunsound.1.symm.trans hblank) Bool.false_ne_true
  | sound _ hsound => exact absurd hsound hunsound.2
  | declined _ hdeclines => exact hdeclines

theorem Ends.congr {answer? line? : Option Bytes} {saved : Bytes} {result : Result}
    (h : Ends answer? saved result)
    (hagree : Unsound saved → (Declines line? ↔ Declines answer?)) :
    Ends line? saved result := by
  cases h with
  | blank hblank => exact .blank hblank
  | sound hblank hsound => exact .sound hblank hsound
  | declined hunsound hdeclines => exact .declined hunsound ((hagree hunsound).mpr hdeclines)

/-- An edit that follows answers: each attempt but the last saves a text that does not compile and
is to be edited again, each attempt but the first is shown what the one before saved, and the last
one ends the edit, if only because the editor fails. -/
def Follows (failure : Bytes) (saves : List Bytes) (answers : Nat → Option Bytes) (first : Bytes)
    (log : Log) : Prop :=
  ∃ n ≤ saves.length, log.offered = first :: saves.take n ∧
    (∀ k < n, ∃ saved, saves[k]? = some saved ∧ Unsound saved ∧ ¬Declines (answers k)) ∧
    match saves[n]? with
    | some saved => Ends (answers n) saved log.result
    | none => log.result = .failed failure

def Asks (saves : List Bytes) (log : Log) (k : Nat) : Prop :=
  k < log.offered.length ∧ ∃ saved, saves[k]? = some saved ∧ Unsound saved

variable {failure first saved : Bytes} {saves : List Bytes} {answers lines : Nat → Option Bytes}
  {log : Log}

theorem Follows.of_ends (hends : Ends (answers 0) saved log.result)
    (hoffered : log.offered = [first]) : Follows failure (saved :: saves) answers first log :=
  ⟨0, Nat.zero_le _, hoffered, fun _ hk => absurd hk (Nat.not_lt_zero _), hends⟩

theorem Follows.cons {rest : Log} (hunsound : Unsound saved) (hagain : ¬Declines (answers 0))
    (h : Follows failure saves (fun k => answers (k + 1)) saved rest)
    (hoffered : log.offered = first :: rest.offered) (hresult : log.result = rest.result) :
    Follows failure (saved :: saves) answers first log := by
  obtain ⟨n, hn, hshown, hsteps, hlast⟩ := h
  refine ⟨n + 1, Nat.succ_le_succ hn, by rw [hoffered, hshown, List.take_succ_cons], ?_, ?_⟩
  · intro k hk
    cases k with
    | zero => exact ⟨saved, rfl, hunsound, hagain⟩
    | succ k => exact hsteps k (Nat.lt_of_succ_lt_succ hk)
  · rw [hresult]
    exact hlast

/-- One attempt: the edit ends with it, or goes on with what it saved and with the input that the
prompt has left. -/
theorem loop_step (failure saved : Bytes) (saves : List Bytes) (content : Bytes)
    (input : List Bytes) :
    let log := loop failure (saved :: saves) content input
    let rest := loop failure saves saved (answer input).2
    Ends (answer input).1 saved log.result ∧ log.offered = [content] ∨
      Unsound saved ∧ ¬Declines (answer input).1 ∧ log.offered = content :: rest.offered ∧
        log.result = rest.result := by
  rw [loop]
  cases hblank : Bytes.isBlank saved with
  | true => exact .inl ⟨.blank hblank, rfl⟩
  | false =>
      rw [if_neg (by decide)]
      by_cases hsound : (Program.ofSource saved defaultLimit).diagnostics = []
      · rw [if_pos (by simpa using hsound)]
        exact .inl ⟨.sound hblank hsound, rfl⟩
      · have hunsound : Unsound saved := ⟨hblank, hsound⟩
        rw [if_neg (by simpa using hsound)]
        cases answer input with
        | mk answer? left =>
            cases answer? with
            | none => exact .inl ⟨.declined hunsound trivial, rfl⟩
            | some reply =>
                cases haccepts : accepts reply with
                | true =>
                    have hagain : ¬Declines (some reply) := by simp [declines_some, haccepts]
                    dsimp only
                    rw [if_pos haccepts]
                    exact .inr ⟨hunsound, hagain, rfl, rfl⟩
                | false =>
                    have hdeclines := (declines_some reply).mpr haccepts
                    dsimp only
                    rw [haccepts, if_neg Bool.false_ne_true]
                    exact .inl ⟨.declined hunsound hdeclines, rfl⟩

/-- The loop follows the answers that it hears. -/
theorem loop_follows (failure : Bytes) (saves : List Bytes) (content : Bytes)
    (input : List Bytes) :
    Follows failure saves (heard input) content (loop failure saves content input) := by
  induction saves generalizing content input with
  | nil => exact ⟨0, Nat.le_refl _, rfl, fun _ hk => absurd hk (Nat.not_lt_zero _), rfl⟩
  | cons saved saves ih =>
      rcases loop_step failure saved saves content input with
        ⟨hends, hoffered⟩ | ⟨hunsound, hagain, hoffered, hresult⟩
      · exact .of_ends hends hoffered
      · exact .cons hunsound hagain (ih saved (answer input).2) hoffered hresult

theorem length_offered {n : Nat} (hn : n ≤ saves.length)
    (hoffered : log.offered = first :: saves.take n) : log.offered.length = n + 1 := by
  rw [hoffered, List.length_cons, List.length_take, Nat.min_eq_left hn]

/-- An edit that follows answers follows others just if these decline at the same prompts. -/
theorem Follows.iff_agree (h : Follows failure saves answers first log) :
    Follows failure saves lines first log ↔
      ∀ k, Asks saves log k → (Declines (lines k) ↔ Declines (answers k)) := by
  obtain ⟨n, hn, hoffered, hsteps, hlast⟩ := h
  have hattempts := length_offered hn hoffered
  constructor
  · rintro ⟨m, hm, hoffered', hsteps', hlast'⟩ k ⟨hk, saved, hsaved, hunsound⟩
    obtain rfl : m = n := Nat.succ.inj ((length_offered hm hoffered').symm.trans hattempts)
    -- Before the last attempt neither declines; behind it both do, since the edit has ended.
    rcases Nat.lt_or_eq_of_le (Nat.le_of_lt_succ (hattempts ▸ hk)) with hbefore | rfl
    · obtain ⟨_, _, _, hagain⟩ := hsteps k hbefore
      obtain ⟨_, _, _, hagain'⟩ := hsteps' k hbefore
      exact iff_of_false hagain' hagain
    · rw [hsaved] at hlast hlast'
      exact iff_of_true (hlast'.declines hunsound) (hlast.declines hunsound)
  · intro hagree
    refine ⟨n, hn, hoffered, fun k hk => ?_, ?_⟩
    · obtain ⟨saved, hsaved, hunsound, hagain⟩ := hsteps k hk
      have hasks : Asks saves log k := ⟨by omega, saved, hsaved, hunsound⟩
      exact ⟨saved, hsaved, hunsound, (not_congr (hagree k hasks)).mpr hagain⟩
    · cases hsaved : saves[n]? with
      | none =>
          rw [hsaved] at hlast
          exact hlast
      | some saved =>
          rw [hsaved] at hlast
          have hlength : n < log.offered.length := by omega
          exact hlast.congr fun hunsound => hagree n ⟨hlength, saved, hsaved, hunsound⟩

/-! ## Input that comes line by line -/

def ByLines (input : List Bytes) : Prop := ∀ piece ∈ input, Bytes.lineFeed ∉ piece.dropLast

/-- An input as it comes from a terminal: no read goes beyond a line feed, and every line fits into
the buffer of a prompt. A terminal gives lines of at most 4096 bytes. -/
structure LineByLine (input : List Bytes) : Prop where
  byLines : ByLines input
  fits : ∀ k line, typed input k = some line → line.length < 65536

def behind (held : Bytes) (r : Option Bytes × List Bytes) : Option Bytes × List Bytes :=
  (if held.isEmpty then r.1 else some (held ++ r.1.getD []), r.2)

theorem behind_behind (held : Bytes) {piece : Bytes} (hpiece : piece ≠ [])
    (r : Option Bytes × List Bytes) : behind held (behind piece r) = behind (held ++ piece) r := by
  cases held <;> simp [behind, hpiece]

section Pieces

variable {piece : Bytes} {rest : List Bytes}

theorem pass_of_not_mem (h : Bytes.lineFeed ∉ piece) :
    ∀ b ∈ piece, decide (b ≠ Bytes.lineFeed) = true :=
  fun _ hb => decide_eq_true fun heq => h (heq ▸ hb)

theorem nextLine_cons_of_not_mem (hpiece : piece ≠ []) (h : Bytes.lineFeed ∉ piece) :
    nextLine (piece :: rest) = behind piece (nextLine rest) := by
  rw [nextLine, List.dropWhile_eq_nil_iff.mpr (pass_of_not_mem h)]
  simp [behind, hpiece]

/-- A read that ends with its only line feed. -/
theorem nextLine_cons_of_mem (h : Bytes.lineFeed ∈ piece)
    (hends : Bytes.lineFeed ∉ piece.dropLast) :
    nextLine (piece :: rest) = (some (piece.takeWhile (· ≠ Bytes.lineFeed)), rest) := by
  obtain ⟨before, left, rfl⟩ := List.append_of_mem h
  have hleft : left = [] := by
    by_contra hne
    refine hends ?_
    rw [List.dropLast_append_of_ne_nil (List.cons_ne_nil _ _), List.dropLast_cons_of_ne_nil hne]
    simp
  subst hleft
  rw [List.dropLast_concat] at hends
  rw [nextLine, List.dropWhile_append_of_pos (pass_of_not_mem hends)]
  simp

/-- A part of a read without a line feed belongs to the line. -/
theorem nextLine_append {more : Bytes} (hpiece : piece ≠ []) (hmore : more ≠ [])
    (h : Bytes.lineFeed ∉ piece) :
    nextLine ((piece ++ more) :: rest) = behind piece (nextLine (more :: rest)) := by
  rw [nextLine, nextLine, List.dropWhile_append_of_pos (pass_of_not_mem h),
    List.takeWhile_append_of_pos (pass_of_not_mem h)]
  simp only [behind, List.isEmpty_iff, List.append_eq_nil_iff, hpiece, hmore, false_and, if_false]
  cases more.dropWhile (· ≠ Bytes.lineFeed) with
  | nil => simp
  | cons b left => rfl

end Pieces

/-- What a read of an input can return, and what it leaves. -/
inductive Reads : List Bytes → Bytes → List Bytes → Prop where
  | nothing : Reads [] [] []
  | whole (piece : Bytes) (rest : List Bytes) : Reads (piece :: rest) piece rest
  | part {piece more : Bytes} {rest : List Bytes} (hpiece : piece ≠ []) (hmore : more ≠ []) :
      Reads ((piece ++ more) :: rest) piece (more :: rest)

theorem reads_nextRead {room : Nat} (hroom : 0 < room) (input : List Bytes) :
    Reads input (nextRead room input).1 (nextRead room input).2 := by
  cases input with
  | nil => exact .nothing
  | cons piece rest =>
      rw [nextRead]
      split
      · exact .whole piece rest
      · next hlong =>
          have hpart : piece.take room ≠ [] := List.ne_nil_of_length_pos (by simp; omega)
          have hmore : piece.drop room ≠ [] := List.ne_nil_of_length_pos (by simp; omega)
          have hreads : Reads _ _ (_ :: rest) := .part hpart hmore
          rwa [List.take_append_drop] at hreads

namespace Reads

variable {input left : List Bytes} {piece : Bytes}

theorem byLines (h : Reads input piece left) (hinput : ByLines input) : ByLines left := by
  cases h with
  | nothing => exact hinput
  | whole => exact (List.forall_mem_cons.mp hinput).2
  | part hpiece hmore =>
      obtain ⟨hfirst, hothers⟩ := List.forall_mem_cons.mp hinput
      rw [List.dropLast_append_of_ne_nil hmore] at hfirst
      exact List.forall_mem_cons.mpr ⟨fun hmem => hfirst (List.mem_append_right _ hmem), hothers⟩

theorem nextLine_of_nil (h : Reads input [] left) : nextLine input = (none, left) := by
  cases h with
  | nothing => rfl
  | whole => rfl
  | part hpiece => exact absurd rfl hpiece

theorem nextLine_of_not_mem (h : Reads input piece left) (hpiece : piece ≠ [])
    (hline : Bytes.lineFeed ∉ piece) : nextLine input = behind piece (nextLine left) := by
  cases h with
  | nothing => exact absurd rfl hpiece
  | whole => exact nextLine_cons_of_not_mem hpiece hline
  | part _ hmore => exact nextLine_append hpiece hmore hline

theorem nextLine_of_mem (h : Reads input piece left) (hinput : ByLines input)
    (hline : Bytes.lineFeed ∈ piece) :
    nextLine input = (some (piece.takeWhile (· ≠ Bytes.lineFeed)), left) := by
  cases h with
  | nothing => cases hline
  | whole => exact nextLine_cons_of_mem hline (hinput _ List.mem_cons_self)
  | part hpiece hmore =>
      have hfirst := hinput _ List.mem_cons_self
      rw [List.dropLast_append_of_ne_nil hmore] at hfirst
      exact absurd (List.mem_append_left _ hline) hfirst

end Reads

theorem room_pos {held : Bytes} {size : Nat}
    (hsize : bufferSizes.find? (held.length < ·) = some size) : 0 < size - held.length := by
  have hfits := List.find?_some hsize
  rw [decide_eq_true_eq] at hfits
  omega

/-- A prompt takes a line that fits into its buffer as it is typed, and loses nothing behind it. -/
theorem scanLine_eq {held : Bytes} {input : List Bytes} (hheld : Bytes.lineFeed ∉ held)
    (hinput : ByLines input)
    (hfits : held.length + ((nextLine input).1.getD []).length < 65536) :
    scanLine held input = behind held (nextLine input) := by
  fun_induction scanLine held input with
  | case1 held input hline => exact absurd (List.contains_iff_mem.mp hline) hheld
  | case2 held input _ hnone =>
      have hlarge := List.find?_eq_none.mp hnone 65536 (by decide)
      rw [decide_eq_true_eq] at hlarge
      omega
  | case3 held input _ size hsize left hread =>
      have hreads := reads_nextRead (room_pos hsize) input
      rw [hread] at hreads
      rw [hreads.nextLine_of_nil]
      simp [behind]
  | case4 held input _ size hsize b piece left hread ih =>
      have hreads := reads_nextRead (room_pos hsize) input
      rw [hread] at hreads
      by_cases hline : Bytes.lineFeed ∈ b :: piece
      · have hboth : (held ++ b :: piece).contains Bytes.lineFeed = true :=
          List.contains_iff_mem.mpr (List.mem_append_right _ hline)
        rw [scanLine, if_pos hboth, hreads.nextLine_of_mem hinput hline,
          List.takeWhile_append_of_pos (pass_of_not_mem hheld)]
        cases held <;> simp [behind]
      · have hbehind := hreads.nextLine_of_not_mem (List.cons_ne_nil b piece) hline
        rw [hbehind] at hfits ⊢
        rw [behind_behind held (List.cons_ne_nil b piece)]
        refine ih (by simp [hheld, hline]) (hreads.byLines hinput) ?_
        simp only [behind, List.isEmpty_cons, Bool.false_eq_true, if_false, Option.getD_some,
          List.length_append] at hfits ⊢
        omega

theorem answer_eq_nextLine {input : List Bytes} (hinput : ByLines input)
    (hfits : ∀ line, (nextLine input).1 = some line → line.length < 65536) :
    answer input = nextLine input := by
  refine scanLine_eq List.not_mem_nil hinput ?_
  cases hline : (nextLine input).1 with
  | none => decide
  | some line => simpa using hfits line hline

theorem byLines_nextLine {input : List Bytes} (hinput : ByLines input) :
    ByLines (nextLine input).2 := by
  induction input with
  | nil => exact hinput
  | cons piece rest ih =>
      obtain ⟨hfirst, hothers⟩ := List.forall_mem_cons.mp hinput
      by_cases hpiece : piece = []
      · subst hpiece
        exact hothers
      by_cases hline : Bytes.lineFeed ∈ piece
      · rw [nextLine_cons_of_mem hline hfirst]
        exact hothers
      · rw [nextLine_cons_of_not_mem hpiece hline]
        exact ih hothers

/-- What is typed line by line is what the prompts take for an answer. -/
theorem LineByLine.heard_eq {input : List Bytes} (h : LineByLine input) :
    heard input = typed input := by
  funext k
  induction k generalizing input with
  | zero => exact congrArg (·.1) (answer_eq_nextLine h.byLines (h.fits 0))
  | succ k ih =>
      have hlater : LineByLine (nextLine input).2 :=
        ⟨byLines_nextLine h.byLines, fun k => h.fits (k + 1)⟩
      have hfirst := answer_eq_nextLine h.byLines (h.fits 0)
      simp only [heard, typed, answersBy, hfirst] at ih ⊢
      exact ih hlater

/-- Lines that are typed one after the other, and then the end of input. -/
theorem typed_lines {lines : List Bytes} (hlines : ∀ line ∈ lines, Bytes.lineFeed ∉ line)
    (k : Nat) : typed (lines.map (· ++ [Bytes.lineFeed])) k = lines[k]? := by
  induction lines generalizing k with
  | nil =>
      induction k with
      | zero => rfl
      | succ k ih => exact ih
  | cons line lines ih =>
      obtain ⟨hfirst, hothers⟩ := List.forall_mem_cons.mp hlines
      have hnext : nextLine ((line :: lines).map (· ++ [Bytes.lineFeed])) =
          (some line, lines.map (· ++ [Bytes.lineFeed])) := by
        rw [List.map_cons, nextLine_cons_of_mem (by simp) (by simpa using hfirst),
          List.takeWhile_append_of_pos (pass_of_not_mem hfirst)]
        simp
      cases k with
      | zero => exact congrArg (·.1) hnext
      | succ k =>
          rw [typed, answersBy, hnext]
          exact ih hothers k

/-- Whatever lines are typed, they come line by line, if none is too long. -/
theorem lineByLine_lines {lines : List Bytes}
    (hlines : ∀ line ∈ lines, Bytes.lineFeed ∉ line ∧ line.length < 65536) :
    LineByLine (lines.map (· ++ [Bytes.lineFeed])) where
  byLines := by
    rw [ByLines, List.forall_mem_map]
    intro line hline
    rw [List.dropLast_concat]
    exact (hlines line hline).1
  fits k line hline := by
    rw [typed_lines fun line hline => (hlines line hline).1] at hline
    exact (hlines line (List.mem_of_getElem? hline)).2

/-! ## Input that is read at once -/

theorem answer_nil : answer [] = (none, []) :=
  answer_eq_nextLine (List.forall_mem_nil _) (by simp [nextLine])

theorem scanLine_nil {held : Bytes} (hheld : held ≠ []) (hshort : held.length < 65536) :
    scanLine held [] = (some (held.takeWhile (· ≠ Bytes.lineFeed)), []) := by
  by_cases hline : Bytes.lineFeed ∈ held
  · rw [scanLine, if_pos (List.contains_iff_mem.mpr hline)]
  · rw [scanLine_eq hline (List.forall_mem_nil _) (by simpa [nextLine] using hshort),
      List.takeWhile_eq_self_iff.mpr (pass_of_not_mem hline)]
    simp [behind, nextLine, hheld]

theorem nextLine_singleton {piece : Bytes} (hpiece : piece ≠ []) :
    (nextLine [piece]).1 = some (piece.takeWhile (· ≠ Bytes.lineFeed)) := by
  have hparts := List.takeWhile_append_dropWhile (p := (· ≠ Bytes.lineFeed)) (l := piece)
  rw [nextLine, if_neg (by simpa using hpiece)]
  split
  · next hall =>
      rw [hall, List.append_nil] at hparts
      simp only [nextLine, Option.getD_none, List.append_nil, hparts]
  · rfl

theorem answer_short {input : Bytes} (hshort : input.length ≤ 4096) :
    answer [input] = ((nextLine [input]).1, []) := by
  cases input with
  | nil => exact answer_eq_nextLine (by simp [ByLines]) (by simp [nextLine])
  | cons b rest =>
      have hread : nextRead 4096 [b :: rest] = (b :: rest, []) := if_pos hshort
      rw [nextLine_singleton (List.cons_ne_nil b rest), ← scanLine_nil (List.cons_ne_nil b rest)
        (by omega), answer, scanLine, if_neg (by simp)]
      split
      · next hnone => cases hnone
      · next size hsize =>
          obtain rfl : 4096 = size := Option.some.inj hsize
          simp only [List.length_nil, Nat.sub_zero, hread, List.nil_append]

theorem heard_short {input : Bytes} (hshort : input.length ≤ 4096) :
    heard [input] 0 = typed [input] 0 ∧ ∀ k, heard [input] (k + 1) = none := by
  have hread := answer_short hshort
  refine ⟨congrArg (·.1) hread, fun k => ?_⟩
  rw [heard, answersBy, hread]
  induction k with
  | zero => rw [answersBy, answer_nil]
  | succ k ih => rwa [answersBy, answer_nil]

/-- Before an edit shows something again, it has been told to go on. -/
theorem Follows.again (h : Follows failure saves answers first log) {k : Nat}
    (hk : k + 1 < log.offered.length) : ¬Declines (answers k) := by
  obtain ⟨n, hn, hoffered, hsteps, -⟩ := h
  rw [length_offered hn hoffered] at hk
  obtain ⟨_, _, _, hagain⟩ := hsteps k (Nat.lt_of_succ_lt_succ hk)
  exact hagain

/-- From a short input that is returned at once only the first answer is heard. The second prompt
ends the edit, whatever is typed for it. -/
theorem short_follows_iff (b : Bindings) (failure : Bytes) (saves : List Bytes) {input : Bytes}
    (hshort : input.length ≤ 4096) :
    Follows failure saves (typed [input]) (script b) (run b failure saves input) ↔
      (Asks saves (run b failure saves input) 1 → Declines (typed [input] 1)) := by
  have hfollows : Follows failure saves (heard [input]) (script b) (run b failure saves input) :=
    loop_follows ..
  obtain ⟨hfirst, hothers⟩ := heard_short hshort
  have hsecond : Declines (heard [input] 1) := by
    rw [hothers 0]
    trivial
  rw [hfollows.iff_agree]
  constructor
  · exact fun hagree hasks => (hagree 1 hasks).mpr hsecond
  · intro hdeclines k hasks
    match k with
    | 0 => rw [hfirst]
    | 1 => exact iff_of_true (hdeclines hasks) hsecond
    | k + 2 => exact absurd hsecond (hfollows.again (Nat.lt_of_le_of_lt (by omega) hasks.1))

end Edit

/-- The bindings that an edit leads to. -/
def Session.bindingsAfter (s : Session) : Edit.Result → Bindings
  | .accepted source =>
      ((Interpreter.ofOptions s.options s.globals).run source).interpreter.bindings
  | .cancelled | .declined | .failed _ => s.bindings

namespace Prompt

open Edit

/-- What is typed line by line decides an edit: it follows these lines. Unless it ends with a text
that compiles, the bindings stay as they are; else they are those that this text alone makes. -/
theorem edit_follows_lines {ε : Type} [Parts ε] (p : Prompt ε) (failure : Bytes)
    (saves : List Bytes) {input : List Bytes} (hinput : LineByLine input) :
    let log := Edit.edit p.session.bindings failure saves input
    Follows failure saves (typed input) (Edit.script p.session.bindings) log ∧
      (p.takeEdit log.result).1.session.bindings = p.session.bindingsAfter log.result := by
  intro log
  refine ⟨?_, by cases log.result <;> rfl⟩
  rw [← hinput.heard_eq]
  exact loop_follows ..

/-- Two answers, each in a read of its own, and the third text compiles. -/
theorem edited_again_twice :
    let p : Prompt := start (.start {} []) { archive := .memory }
    let saves := [utf8 "(", utf8 "(", utf8 "let x = true;"]
    let lines := [utf8 "y", utf8 " Nope"]
    let input := lines.map (· ++ [Bytes.lineFeed])
    let log := Edit.edit p.session.bindings (utf8 "exit status 3") saves input
    LineByLine input ∧ log.offered = [Edit.script p.session.bindings, utf8 "(", utf8 "("] ∧
      log.result = .accepted (utf8 "let x = true;") ∧
      Follows (utf8 "exit status 3") saves (typed input) (Edit.script p.session.bindings) log ∧
      (p.takeEdit log.result).1.session.bindings = p.session.bindingsAfter log.result := by
  intro p saves lines input log
  have hinput : LineByLine input := lineByLine_lines (by decide)
  have hoffered : log.offered = [Edit.script p.session.bindings, utf8 "(", utf8 "("] := by
    dsimp only [log, input, lines, saves, p]
    cbv
  have hresult : log.result = .accepted (utf8 "let x = true;") := by
    dsimp only [log, input, lines, saves, p]
    cbv
  exact ⟨hinput, hoffered, hresult, edit_follows_lines p _ saves hinput⟩

end Prompt

end Scribe
