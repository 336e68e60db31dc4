import Scribe.Proofs.Prompt.Reload

/-!
# Histories in the order of use

However often a line is entered, a history holds it once. Its entries are the lines that are not
blank, trimmed, and stand in the order in which they were last entered. An entry that is entered
again is taken out of its place and put at the end, which keeps the order of the others.
-/

namespace Scribe

namespace History

/-- From some line on, `f` is entered and `e` no longer is. -/
def LastEnteredBefore (lines : List Bytes) (e f : Bytes) : Prop :=
  ∃ before after, lines = before ++ after ∧ e ∉ after.map Bytes.trim ∧ f ∈ after.map Bytes.trim

/-- Entries that hold each of the lines once, in the order in which they were last entered. -/
structure OrderedByUse (lines entries : List Bytes) : Prop where
  nodup : entries.Nodup
  mem_iff : ∀ e, e ∈ entries ↔ e ≠ [] ∧ e ∈ lines.map Bytes.trim
  ordered : entries.Pairwise (LastEnteredBefore lines)

theorem LastEnteredBefore.concat {lines : List Bytes} {line e f : Bytes}
    (h : LastEnteredBefore lines e f) (hline : e ≠ Bytes.trim line) :
    LastEnteredBefore (lines ++ [line]) e f := by
  obtain ⟨before, after, rfl, he, hf⟩ := h
  refine ⟨before, after ++ [line], List.append_assoc .., ?_, ?_⟩
  · simp [he, hline]
  · simp [hf]

theorem lastEnteredBefore_last (lines : List Bytes) {line e : Bytes} (h : e ≠ Bytes.trim line) :
    LastEnteredBefore (lines ++ [line]) e (Bytes.trim line) :=
  ⟨lines, [line], rfl, by simpa using h, by simp⟩

/-- What entering a line makes of the entries, wherever the history is kept. -/
theorem write_entries {h : History} (hnodup : h.entries.Nodup) (line : Bytes) :
    (h.write line).history.entries =
      if Bytes.trim line = [] then h.entries
      else h.entries.erase (Bytes.trim line) ++ [Bytes.trim line] := by
  by_cases hblank : Bytes.trim line = []
  · simp [write, hblank]
  by_cases hlast : h.entries.getLast? = some (Bytes.trim line)
  · -- The entry that stands at the end is not moved, and moving it would change nothing.
    have hkept : (h.write line).history = h := by simp [write, hblank, hlast]
    obtain ⟨front, hfront⟩ := List.getLast?_eq_some_iff.mp hlast
    have hnew : Bytes.trim line ∉ front := by
      rw [hfront] at hnodup
      exact fun hmem => List.disjoint_of_nodup_append hnodup hmem (List.mem_singleton_self _)
    rw [hkept, if_neg hblank, hfront, List.erase_append_right _ hnew, List.erase_cons_head,
      List.append_nil]
  · rw [if_neg hblank]
    simp only [write, List.isEmpty_iff, if_neg hblank, if_neg hlast]
    split
    · rfl
    · rfl
    · split <;> rfl

/-- Entering a line keeps the order of use. -/
theorem OrderedByUse.write {h : History} {lines : List Bytes}
    (hordered : OrderedByUse lines h.entries) (line : Bytes) :
    OrderedByUse (lines ++ [line]) (h.write line).history.entries := by
  have hnodup := hordered.nodup
  rw [write_entries hnodup]
  split
  · next hblank =>
    refine ⟨hnodup, fun e => ?_, ?_⟩
    · rw [hordered.mem_iff]
      simp only [List.map_append, List.map_singleton, List.mem_append, List.mem_singleton, hblank]
      tauto
    · refine hordered.ordered.imp_of_mem fun he _ hbefore => hbefore.concat ?_
      rw [hblank]
      exact ((hordered.mem_iff _).mp he).1
  · next hentry =>
    have hrest : ∀ e, e ∈ h.entries.erase (Bytes.trim line) ↔
        e ≠ Bytes.trim line ∧ e ∈ h.entries := fun e => hnodup.mem_erase_iff
    refine ⟨?_, fun e => ?_, ?_⟩
    · rw [List.nodup_append_comm, List.singleton_append, List.nodup_cons]
      exact ⟨hnodup.not_mem_erase, hnodup.erase _⟩
    · rw [List.mem_append, hrest, List.mem_singleton, hordered.mem_iff]
      simp only [List.map_append, List.map_singleton, List.mem_append, List.mem_singleton]
      by_cases he : e = Bytes.trim line
      · simp [he, hentry]
      · simp [he]
    · rw [List.pairwise_append]
      refine ⟨?_, List.pairwise_singleton _ _, ?_⟩
      · have hsub : (h.entries.erase (Bytes.trim line)).Sublist h.entries := List.erase_sublist
        have hkept := hordered.ordered.sublist hsub
        exact hkept.imp_of_mem fun he _ hbefore => hbefore.concat ((hrest _).mp he).1
      · intro e he f hf
        rw [List.mem_singleton.mp hf]
        exact lastEnteredBefore_last lines ((hrest e).mp he).1

theorem OrderedByUse.writeAll {h : History} {done : List Bytes}
    (hordered : OrderedByUse done h.entries) (lines : List Bytes) :
    OrderedByUse (done ++ lines) (h.writeAll lines).entries := by
  induction lines generalizing h done with
  | nil => simpa [History.writeAll] using hordered
  | cons line lines ih =>
      rw [History.writeAll, List.append_cons]
      exact ih (hordered.write line)

/-- After lines have been entered into an empty history, wherever it is kept, it holds each line
that is not blank once, trimmed, in the order in which they were last entered. The entries are
found by their numbers from zero on, and nothing is found by another number. -/
theorem entries_ordered_by_use (archive : Archive) (lines : List Bytes) :
    let h := writeAll { archive } lines
    h.entries.Nodup ∧
      (∀ e, e ∈ h.entries ↔ e ≠ [] ∧ ∃ line ∈ lines, Bytes.trim line = e) ∧
      h.entries.Pairwise (LastEnteredBefore lines) ∧
      (∀ i : Fin h.size, h.get? i.val = some (h.entries.get i)) ∧
      ∀ i : Int, h.get? i = none ↔ i < 0 ∨ h.size ≤ i := by
  intro h
  have hstart : OrderedByUse [] ({ archive } : History).entries :=
    ⟨List.nodup_nil, by simp, .nil⟩
  obtain ⟨hnodup, hmem, hordered⟩ := hstart.writeAll lines
  refine ⟨hnodup, fun e => ?_, hordered, fun i => ?_, fun i => ?_⟩
  · rw [hmem, List.nil_append, List.mem_map]
  · rw [get?, if_neg (by omega), Int.toNat_natCast]
    exact List.getElem?_eq_getElem i.isLt
  · rw [get?]
    split
    · simp [*]
    · rw [List.getElem?_eq_none_iff, ← size]
      omega

/-- The entry that is entered again moves behind the other one. -/
example : (writeAll { archive := .memory } [utf8 "a", utf8 "b", utf8 " ", utf8 " a"]).entries =
    [utf8 "b", utf8 "a"] := by
  cbv

end History

end Scribe
