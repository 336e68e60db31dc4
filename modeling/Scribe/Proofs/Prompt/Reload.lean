import Mathlib
import Scribe.Prompt.History
import Scribe.Proofs.Text.Pieces
import Scribe.Proofs.Text.Space

/-!
# Histories read back from their file

An entry that is written on a line of its own is read back from it. A file that somebody else left
may break off within a line, and an entry that is appended there is joined to what stands before
it. The file and the history then differ until the file is written anew.
-/

namespace Scribe

namespace History

/-! ## Lines and entries -/

/-- What an entry is: a trimmed text that is not empty and that a line can hold. -/
structure IsEntry (entry : Bytes) : Prop where
  trimmed : Bytes.trim entry = entry
  ne_nil : entry ≠ []
  oneLine : Bytes.lineFeed ∉ entry
  length_le : entry.length ≤ lineLimit

theorem isEntry_trim {line : Bytes} (hfeed : Bytes.lineFeed ∉ line)
    (hlength : line.length ≤ lineLimit) (hne : Bytes.trim line ≠ []) :
    IsEntry (Bytes.trim line) where
  trimmed := Bytes.trim_trim line
  ne_nil := hne
  oneLine hmem := hfeed ((Bytes.trim_sublist line).subset hmem)
  length_le := (Bytes.trim_sublist line).length_le.trans hlength

def entryOf (line : Bytes) : List Bytes :=
  if (Bytes.trim line).isEmpty then [] else [Bytes.trim line]

theorem entryOf_of_isBlank {line : Bytes} (h : Bytes.isBlank line = true) : entryOf line = [] := by
  rw [entryOf, (Bytes.trim_eq_nil_iff line).mpr h]
  rfl

theorem isBlank_nil : Bytes.isBlank [] = true := by
  rw [Bytes.isBlank, Bytes.runes_nil]
  rfl

theorem entryOf_nil : entryOf [] = [] := entryOf_of_isBlank isBlank_nil

theorem entryOf_of_not_isBlank {line : Bytes} (h : ¬ Bytes.isBlank line = true) :
    entryOf line = [Bytes.trim line] := by
  have hne : Bytes.trim line ≠ [] := mt (Bytes.trim_eq_nil_iff line).mp h
  rw [entryOf, if_neg (by simpa using hne)]

theorem entryOf_length_le (line : Bytes) : (entryOf line).length ≤ 1 := by
  unfold entryOf
  split <;> simp

theorem IsEntry.entryOf_append {entry before : Bytes} (h : IsEntry entry)
    (hbefore : Bytes.isBlank before = true) : entryOf (before ++ entry) = [entry] := by
  have htrim : Bytes.trim (before ++ entry) = entry := by
    rw [Bytes.trim_append_of_isBlank hbefore, h.trimmed]
  rw [entryOf, htrim, if_neg (by simpa using h.ne_nil)]

theorem readLines_cons {line : Bytes} (h : line.length ≤ lineLimit) (rest : List Bytes) :
    readLines (line :: rest) = (entryOf line ++ (readLines rest).1, (readLines rest).2) := by
  simp only [readLines, if_neg (Nat.not_lt.mpr h), entryOf]
  split <;> rfl

theorem readLines_of_tooLong {line : Bytes} (h : lineLimit < line.length) (rest : List Bytes) :
    readLines (line :: rest) = ([], true) := by
  rw [readLines, if_pos h]

theorem readLines_append {lines : List Bytes} (h : (readLines lines).2 = false)
    (more : List Bytes) : readLines (lines ++ more) =
      ((readLines lines).1 ++ (readLines more).1, (readLines more).2) := by
  induction lines with
  | nil => rfl
  | cons line lines ih =>
      by_cases hlong : lineLimit < line.length
      · rw [readLines_of_tooLong hlong] at h
        cases h
      · have hfits := Nat.not_lt.mp hlong
        rw [readLines_cons hfits] at h
        rw [List.cons_append, readLines_cons hfits, readLines_cons hfits, ih h, List.append_assoc]

/-- Nothing is read behind a line that is too long. -/
theorem readLines_append_of_tooLong {lines : List Bytes} (h : (readLines lines).2 = true)
    (more : List Bytes) : readLines (lines ++ more) = readLines lines := by
  induction lines with
  | nil => cases h
  | cons line lines ih =>
      by_cases hlong : lineLimit < line.length
      · rw [List.cons_append, readLines_of_tooLong hlong, readLines_of_tooLong hlong]
      · have hfits := Nat.not_lt.mp hlong
        rw [readLines_cons hfits] at h
        rw [List.cons_append, readLines_cons hfits, readLines_cons hfits, ih h]

theorem readLines_of_append {lines more : List Bytes}
    (h : (readLines (lines ++ more)).2 = false) : (readLines lines).2 = false := by
  by_contra hlong
  rw [Bool.not_eq_false] at hlong
  rw [readLines_append_of_tooLong hlong, hlong] at h
  cases h

theorem mem_readLines {lines : List Bytes} {entry : Bytes} (h : entry ∈ (readLines lines).1) :
    ∃ line ∈ lines, line.length ≤ lineLimit ∧ entry ∈ entryOf line := by
  induction lines with
  | nil => cases h
  | cons line lines ih =>
      by_cases hlong : lineLimit < line.length
      · rw [readLines_of_tooLong hlong] at h
        cases h
      · have hfits := Nat.not_lt.mp hlong
        rw [readLines_cons hfits, List.mem_append] at h
        rcases h with h | h
        · exact ⟨line, List.mem_cons_self, hfits, h⟩
        · obtain ⟨found, hfound, hrest⟩ := ih h
          exact ⟨found, List.mem_cons_of_mem line hfound, hrest⟩

/-! ## The text of a file -/

def read (text : Bytes) : List Bytes × Bool := readLines (Bytes.splitOn Bytes.lineFeed text)

/-- The line that a text breaks off in, which is empty behind a line feed. -/
def brokenLine (text : Bytes) : Bytes := Bytes.lastPiece Bytes.lineFeed text

/-- An entry that is appended to the line is read back: nothing but white space stands before it,
and the line does not get too long. -/
def Fits (line entry : Bytes) : Prop :=
  Bytes.isBlank line = true ∧ (line ++ entry).length ≤ lineLimit

theorem IsEntry.fits_nil {entry : Bytes} (h : IsEntry entry) : Fits [] entry :=
  ⟨isBlank_nil, h.length_le⟩

theorem isEntry_of_mem_read {text entry : Bytes} (h : entry ∈ (read text).1) : IsEntry entry := by
  obtain ⟨line, hline, hlength, hentry⟩ := mem_readLines h
  have hfeed := Bytes.not_mem_of_mem_splitOn hline
  unfold entryOf at hentry
  split at hentry
  · cases hentry
  · next hne =>
      rw [List.mem_singleton.mp hentry]
      exact isEntry_trim hfeed hlength (by simpa using hne)

/-- Entries written on lines of their own are read back. -/
theorem read_fileText {entries : List Bytes} (h : ∀ entry ∈ entries, IsEntry entry) :
    read (fileText entries) = (entries, false) := by
  induction entries with
  | nil =>
      have hnil : Bytes.splitOn Bytes.lineFeed (fileText []) = [[]] :=
        Bytes.splitOn_of_not_mem List.not_mem_nil
      rw [read, hnil, readLines_cons (Nat.zero_le _), entryOf_nil]
      rfl
  | cons entry entries ih =>
      have hentry := h entry List.mem_cons_self
      have hone : entryOf entry = [entry] := hentry.entryOf_append isBlank_nil
      have hrest := ih fun e he => h e (List.mem_cons_of_mem entry he)
      have htext : fileText (entry :: entries) = entry ++ Bytes.lineFeed :: fileText entries := by
        simp [fileText]
      rw [read, htext, Bytes.splitOn_append hentry.oneLine, readLines_cons hentry.length_le, hone,
        ← read, hrest]
      rfl

theorem read_nil : read [] = ([], false) :=
  @read_fileText [] (by simp)

theorem brokenLine_append (text entry : Bytes) :
    brokenLine (text ++ (entry ++ [Bytes.lineFeed])) = [] := by
  rw [← List.append_assoc]
  exact Bytes.lastPiece_append_mark Bytes.lineFeed (text ++ entry)

theorem brokenLine_fileText (entries : List Bytes) : brokenLine (fileText entries) = [] := by
  rcases List.eq_nil_or_concat entries with rfl | ⟨before, entry, rfl⟩
  · exact congrArg (List.getLastD · []) (Bytes.splitOn_of_not_mem List.not_mem_nil)
  · rw [List.concat_eq_append, fileText, List.flatMap_append, List.flatMap_singleton]
    exact brokenLine_append _ entry

/-- The lines of a text, and those it has when an entry is appended: only the last line differs. -/
theorem lines_append (text : Bytes) {entry : Bytes} (h : Bytes.lineFeed ∉ entry) : ∃ lines,
    read text = readLines (lines ++ [brokenLine text]) ∧
      read (text ++ (entry ++ [Bytes.lineFeed])) =
        readLines (lines ++ [brokenLine text ++ entry, []]) := by
  obtain ⟨hlast, lines, hlines⟩ := Bytes.splitOn_lastPiece Bytes.lineFeed text
  have hboth : Bytes.lineFeed ∉ brokenLine text ++ entry := by
    rw [List.mem_append, not_or]
    exact ⟨hlast, h⟩
  refine ⟨lines, ?_, ?_⟩
  · have hwhole := hlines []
    rw [List.append_nil, List.append_nil, Bytes.splitOn_of_not_mem hlast] at hwhole
    rw [read, hwhole, brokenLine]
  · rw [read, hlines, ← List.append_assoc, ← brokenLine, Bytes.splitOn_append hboth,
      Bytes.splitOn_of_not_mem List.not_mem_nil]

theorem readLines_last {line : Bytes} (h : line.length ≤ lineLimit) :
    readLines [line, []] = (entryOf line, false) := by
  rw [readLines_cons h, readLines_cons (Nat.zero_le _), entryOf_nil]
  simp [readLines]

section Append

variable {text entry : Bytes} (hentry : IsEntry entry)
include hentry

theorem read_append (hread : (read text).2 = false) (hfits : Fits (brokenLine text) entry) :
    read (text ++ (entry ++ [Bytes.lineFeed])) = ((read text).1 ++ [entry], false) := by
  obtain ⟨lines, hbefore, hbehind⟩ := lines_append text hentry.oneLine
  rw [hbefore] at hread
  have hlines := readLines_of_append hread
  have hshort : (brokenLine text).length ≤ lineLimit :=
    (List.length_append ▸ Nat.le_add_right _ _).trans hfits.2
  rw [hbehind, readLines_append hlines, readLines_last hfits.2, hentry.entryOf_append hfits.1,
    hbefore, readLines_append hlines, readLines_cons hshort, entryOf_of_isBlank hfits.1]
  simp [readLines]

/-- An entry that does not fit is read back at the expense of another one, or not at all. -/
theorem read_append_length (hread : (read text).2 = false)
    (hfits : ¬ Fits (brokenLine text) entry) :
    (read (text ++ (entry ++ [Bytes.lineFeed]))).1.length ≤ (read text).1.length := by
  obtain ⟨lines, hbefore, hbehind⟩ := lines_append text hentry.oneLine
  rw [hbefore] at hread
  have hlines := readLines_of_append hread
  rw [hbefore, hbehind, readLines_append hlines, readLines_append hlines, List.length_append,
    List.length_append]
  by_cases hlong : lineLimit < (brokenLine text ++ entry).length
  · rw [readLines_of_tooLong hlong]
    exact Nat.add_le_add_left (Nat.zero_le _) _
  · have hboth := Nat.not_lt.mp hlong
    have hblank : ¬ Bytes.isBlank (brokenLine text) = true := fun h => hfits ⟨h, hboth⟩
    have hshort : (brokenLine text).length ≤ lineLimit :=
      (List.length_append ▸ Nat.le_add_right _ _).trans hboth
    rw [readLines_last hboth, readLines_cons hshort, entryOf_of_not_isBlank hblank]
    exact Nat.add_le_add_left (entryOf_length_le _) _

/-- Behind a line feed, an entry adds one entry at most, also where a line before it is too long. -/
theorem read_append_length_le (hclosed : brokenLine text = []) :
    (read (text ++ (entry ++ [Bytes.lineFeed]))).1.length ≤ (read text).1.length + 1 := by
  obtain ⟨lines, hbefore, hbehind⟩ := lines_append text hentry.oneLine
  rw [hbefore, hbehind, hclosed, List.nil_append]
  cases hlong : (readLines lines).2 with
  | true =>
      rw [readLines_append_of_tooLong hlong, readLines_append_of_tooLong hlong]
      exact Nat.le_succ _
  | false =>
      rw [readLines_append hlong, readLines_append hlong, readLines_last hentry.length_le,
        List.length_append, List.length_append]
      exact Nat.add_le_add (Nat.le_add_right _ _) (entryOf_length_le entry)

end Append

/-! ## What entering a line does to the file -/

inductive Saving where
  | kept
  | appended (entry : Bytes)
  | rewritten
  deriving DecidableEq

def Saving.appended? : Saving → Option Bytes
  | .appended entry => some entry
  | _ => none

/-- What entering a line does to the file of a history. -/
def saving (h : History) (line : Bytes) : Saving :=
  if (Bytes.trim line).isEmpty then .kept
  else if h.entries.getLast? = some (Bytes.trim line) then .kept
  else if h.entries.contains (Bytes.trim line) then .rewritten
  else .appended (Bytes.trim line)

def writeAll (h : History) : List Bytes → History
  | [] => h
  | line :: lines => writeAll (h.write line).history lines

def savings (h : History) : List Bytes → List Saving
  | [] => []
  | line :: lines => h.saving line :: savings (h.write line).history lines

def reopened (h : History) : History := (load { archive := h.archive }).1

/-- The history is kept in a file with the given text, and holds entries only. -/
structure KeptIn (h : History) (text : Bytes) : Prop where
  archive : ∃ content : Option Bytes, h.archive = .file content ∧ content.getD [] = text
  entries : ∀ entry ∈ h.entries, IsEntry entry

theorem load_file (content : Option Bytes) :
    (load { archive := .file content }).1 = ⟨.file content, (read (content.getD [])).1⟩ := by
  cases content with
  | some text => rfl
  | none => rw [Option.getD_none, read_nil, load]

theorem load_file_eq_none_iff (content : Option Bytes) :
    (load { archive := .file content }).2 = none ↔ (read (content.getD [])).2 = false := by
  cases content with
  | some text =>
      simp only [load, Option.getD_some, read]
      cases (readLines (Bytes.splitOn Bytes.lineFeed text)).2 <;> simp
  | none => simp only [load, Option.getD_none, read_nil]

theorem KeptIn.reopened_entries {h : History} {text : Bytes} (hkept : h.KeptIn text) :
    h.reopened.entries = (read text).1 := by
  obtain ⟨content, harchive, rfl⟩ := hkept.archive
  rw [reopened, harchive, load_file]

/-- The three things that entering a line can do to a file and its history. -/
theorem KeptIn.write_cases {h : History} {text line : Bytes} (hkept : h.KeptIn text)
    (hfeed : Bytes.lineFeed ∉ line) (hlength : line.length ≤ lineLimit) :
    h.saving line = .kept ∧ (h.write line).history = h ∨
    (∃ entry, h.saving line = .appended entry ∧ IsEntry entry ∧
      (h.write line).history.KeptIn (text ++ (entry ++ [Bytes.lineFeed])) ∧
      (h.write line).history.entries = h.entries ++ [entry]) ∨
    h.saving line = .rewritten ∧
      (h.write line).history.KeptIn (fileText (h.write line).history.entries) := by
  obtain ⟨content, harchive, rfl⟩ := hkept.archive
  by_cases hempty : (Bytes.trim line).isEmpty = true
  · exact .inl ⟨by simp only [saving, if_pos hempty], by simp only [write, if_pos hempty]⟩
  have hentry := isEntry_trim hfeed hlength (by simpa using hempty)
  have hadded : ∀ entries ⊆ h.entries, ∀ e ∈ entries ++ [Bytes.trim line], IsEntry e := by
    intro entries hsub e he
    rcases List.mem_append.mp he with he | he
    · exact hkept.entries e (hsub he)
    · exact List.mem_singleton.mp he ▸ hentry
  by_cases hlast : h.entries.getLast? = some (Bytes.trim line)
  · exact .inl ⟨by simp only [saving, if_neg hempty, if_pos hlast],
      by simp only [write, if_neg hempty, if_pos hlast]⟩
  by_cases hold : h.entries.contains (Bytes.trim line) = true
  · refine .inr (.inr ⟨by simp only [saving, if_neg hempty, if_neg hlast, if_pos hold], ?_⟩)
    have hrun : (h.write line).history =
        ⟨.file (some (fileText (h.entries.erase (Bytes.trim line) ++ [Bytes.trim line]))),
          h.entries.erase (Bytes.trim line) ++ [Bytes.trim line]⟩ := by
      simp only [write, if_neg hempty, if_neg hlast, if_pos hold, harchive]
    rw [hrun]
    exact ⟨⟨_, rfl, rfl⟩, hadded _ (List.erase_subset)⟩
  · refine .inr (.inl ⟨Bytes.trim line,
      by simp only [saving, if_neg hempty, if_neg hlast, if_neg hold], hentry, ?_⟩)
    have hsame : h.entries.erase (Bytes.trim line) = h.entries :=
      List.erase_of_not_mem (by simpa using hold)
    have hrun : (h.write line).history =
        ⟨.file (some (content.getD [] ++ (Bytes.trim line ++ [Bytes.lineFeed]))),
          h.entries ++ [Bytes.trim line]⟩ := by
      simp only [write, if_neg hempty, if_neg hlast, if_neg hold, harchive, hsame]
    rw [hrun]
    exact ⟨⟨⟨_, rfl, rfl⟩, hadded _ (List.Subset.refl _)⟩, rfl⟩

/-! ## Lines entered one after the other -/

/-- The lines can be told apart in a file: each is a single line, and none is too long. -/
def Enterable (lines : List Bytes) : Prop :=
  ∀ line ∈ lines, Bytes.lineFeed ∉ line ∧ line.length ≤ lineLimit

section WriteAll

variable {h : History} {text : Bytes} {lines : List Bytes}

/-- A file that is in step with its history and ends in a line feed stays in step. -/
theorem KeptIn.writeAll_closed (hkept : h.KeptIn text) (hread : read text = (h.entries, false))
    (hclosed : brokenLine text = []) (hlines : Enterable lines) :
    (h.writeAll lines).reopened.entries = (h.writeAll lines).entries := by
  induction lines generalizing h text with
  | nil => rw [writeAll, hkept.reopened_entries, hread]
  | cons line lines ih =>
      obtain ⟨⟨hfeed, hlength⟩, hrest⟩ := List.forall_mem_cons.mp hlines
      rw [writeAll]
      rcases hkept.write_cases hfeed hlength with
        ⟨-, hsame⟩ | ⟨entry, -, hentry, hkept', hentries⟩ | ⟨-, hkept'⟩
      · rw [hsame]
        exact ih hkept hread hclosed hrest
      · have hread' := read_append hentry (by rw [hread]) (hclosed ▸ hentry.fits_nil)
        rw [hread, ← hentries] at hread'
        exact ih hkept' hread' (brokenLine_append text entry) hrest
      · exact ih hkept' (read_fileText hkept'.entries) (brokenLine_fileText _) hrest

/-- A file that holds fewer entries than its history catches up exactly when it is written anew. -/
theorem KeptIn.writeAll_behind (hkept : h.KeptIn text)
    (hbehind : (read text).1.length < h.entries.length) (hclosed : brokenLine text = [])
    (hlines : Enterable lines) :
    (h.writeAll lines).reopened.entries = (h.writeAll lines).entries ↔
      .rewritten ∈ h.savings lines := by
  induction lines generalizing h text with
  | nil =>
      rw [writeAll, hkept.reopened_entries, savings]
      refine iff_of_false (fun heq => ?_) List.not_mem_nil
      exact absurd (congrArg List.length heq) (Nat.ne_of_lt hbehind)
  | cons line lines ih =>
      obtain ⟨⟨hfeed, hlength⟩, hrest⟩ := List.forall_mem_cons.mp hlines
      rw [writeAll, savings]
      rcases hkept.write_cases hfeed hlength with
        ⟨hsaving, hsame⟩ | ⟨entry, hsaving, hentry, hkept', hentries⟩ | ⟨hsaving, hkept'⟩
      · rw [hsaving, hsame, ih hkept hbehind hclosed hrest]
        simp
      · have hmore := read_append_length_le hentry hclosed
        have hbehind' : (read (text ++ (entry ++ [Bytes.lineFeed]))).1.length <
            (h.write line).history.entries.length := by
          rw [hentries, List.length_append, List.length_singleton]
          omega
        rw [hsaving, ih hkept' hbehind' (brokenLine_append text entry) hrest]
        simp
      · rw [hsaving]
        exact iff_of_true (hkept'.writeAll_closed (read_fileText hkept'.entries)
          (brokenLine_fileText _) hrest) List.mem_cons_self

/-- The first entry that is appended decides, unless the file is written anew. -/
theorem KeptIn.writeAll_iff (hkept : h.KeptIn text) (hread : read text = (h.entries, false))
    (hlines : Enterable lines) :
    (h.writeAll lines).reopened.entries = (h.writeAll lines).entries ↔
      .rewritten ∈ h.savings lines ∨
        ∀ entry ∈ (h.savings lines).findSome? Saving.appended?, Fits (brokenLine text) entry := by
  induction lines generalizing h with
  | nil =>
      rw [writeAll, hkept.reopened_entries, hread]
      exact iff_of_true rfl (.inr (by simp [savings]))
  | cons line lines ih =>
      obtain ⟨⟨hfeed, hlength⟩, hrest⟩ := List.forall_mem_cons.mp hlines
      rw [writeAll, savings]
      rcases hkept.write_cases hfeed hlength with
        ⟨hsaving, hsame⟩ | ⟨entry, hsaving, hentry, hkept', hentries⟩ | ⟨hsaving, hkept'⟩
      · rw [hsaving, hsame, ih hkept hread hrest]
        simp [List.findSome?_cons, Saving.appended?]
      · have hclosed := brokenLine_append text entry
        simp only [hsaving, List.findSome?_cons, Saving.appended?, Option.mem_def,
          Option.some.injEq, forall_eq', List.mem_cons, reduceCtorEq, false_or]
        by_cases hfits : Fits (brokenLine text) entry
        · have hread' := read_append hentry (by rw [hread]) hfits
          rw [hread, ← hentries] at hread'
          exact iff_of_true (hkept'.writeAll_closed hread' hclosed hrest) (.inr hfits)
        · have hless := read_append_length hentry (by rw [hread]) hfits
          have hbehind : (read (text ++ (entry ++ [Bytes.lineFeed]))).1.length <
              (h.write line).history.entries.length := by
            rw [hread] at hless
            rw [hentries, List.length_append, List.length_singleton]
            exact Nat.lt_succ_of_le hless
          rw [hkept'.writeAll_behind hbehind hclosed hrest, or_iff_left hfits]
      · rw [hsaving]
        exact iff_of_true (hkept'.writeAll_closed (read_fileText hkept'.entries)
          (brokenLine_fileText _) hrest) (.inl List.mem_cons_self)

end WriteAll

/-- After a file has been loaded and lines have been entered, a new history reads the same entries
from the file, exactly when the file has been written anew or the first entry appended to it fits
behind the line that the file broke off in. -/
theorem reopened_entries_iff {content : Option Bytes}
    (hload : (load { archive := .file content }).2 = none) {lines : List Bytes}
    (hlines : Enterable lines) :
    let h := (load { archive := .file content }).1
    (h.writeAll lines).reopened.entries = (h.writeAll lines).entries ↔
      .rewritten ∈ h.savings lines ∨ ∀ entry ∈ (h.savings lines).findSome? Saving.appended?,
        Fits (brokenLine (content.getD [])) entry := by
  intro h
  have hh : h = ⟨.file content, (read (content.getD [])).1⟩ := load_file content
  have hread : read (content.getD []) = (h.entries, false) := by
    rw [hh, ← (load_file_eq_none_iff content).mp hload]
  have hkept : h.KeptIn (content.getD []) := by
    refine ⟨⟨content, by rw [hh], rfl⟩, fun entry hentry => ?_⟩
    rw [hh] at hentry
    exact isEntry_of_mem_read hentry
  exact hkept.writeAll_iff hread hlines

/-- `print a` is joined to a line that breaks off, and a line entered again sets it right. -/
theorem moved_entry_reopened :
    let content := some (utf8 "print b\nlet a = 1")
    let lines := [utf8 " print a ", utf8 "print a", utf8 "print b"]
    let h := (load { archive := .file content }).1
    (load { archive := .file content }).2 = none ∧ Enterable lines ∧
      h.savings lines = [.appended (utf8 "print a"), .kept, .rewritten] ∧
      (h.writeAll lines).reopened.entries = (h.writeAll lines).entries := by
  intro content lines h
  have hload : (load { archive := .file content }).2 = none := by cbv
  have hlines : Enterable lines := by
    intro line hline
    simp only [lines, List.mem_cons, List.not_mem_nil, or_false] at hline
    rcases hline with rfl | rfl | rfl <;> exact ⟨by decide, by decide⟩
  have hsavings : h.savings lines = [.appended (utf8 "print a"), .kept, .rewritten] := by cbv
  refine ⟨hload, hlines, hsavings, (reopened_entries_iff hload hlines).mpr (.inl ?_)⟩
  rw [hsavings]
  simp

/-- Entered behind `a` without a line feed, `b` is read back as `ab`. -/
theorem broken_line_joined : ¬ ∀ (content : Option Bytes) (lines : List Bytes),
    (load { archive := .file content }).2 = none → Enterable lines →
      ((load { archive := .file content }).1.writeAll lines).reopened.entries =
        ((load { archive := .file content }).1.writeAll lines).entries := by
  intro h
  have hlines : Enterable [utf8 "b"] := by
    intro line hline
    rw [List.mem_singleton.mp hline]
    exact ⟨by decide, by decide⟩
  have hsame := h (some (utf8 "a")) [utf8 "b"] (by cbv) hlines
  have hfile : ((load { archive := .file (some (utf8 "a")) }).1.writeAll
      [utf8 "b"]).reopened.entries = [utf8 "ab"] := by cbv
  have hmemory : ((load { archive := .file (some (utf8 "a")) }).1.writeAll
      [utf8 "b"]).entries = [utf8 "a", utf8 "b"] := by cbv
  rw [hfile, hmemory] at hsame
  cases hsame

end History

end Scribe
