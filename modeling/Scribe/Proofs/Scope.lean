import Mathlib
import Scribe.Scope

/-!
# Definitions

A definition changes the value of its own name and of no other. Entries that ascend are bound in
their order. A chain of scopes is the list of them, the current one first.
-/

namespace Scribe

namespace Bindings

theorem lookup_cons (name other : Bytes) (v : Value) (entries : List (Bytes × Value)) :
    ((name, v) :: entries).lookup other =
      if other = name then some v else entries.lookup other := by
  rw [List.lookup_cons]
  by_cases heq : other = name
  · rw [if_pos heq, beq_iff_eq.mpr heq]
  · rw [if_neg heq, beq_eq_false_iff_ne.mpr heq]

theorem lookup_insertEntry (name other : Bytes) (v : Value) (entries : List (Bytes × Value)) :
    (insertEntry name v entries).lookup other =
      if other = name then some v else entries.lookup other := by
  induction entries with
  | nil => exact lookup_cons name other v []
  | cons e rest ih =>
      obtain ⟨first, w⟩ := e
      rw [insertEntry]
      split
      · exact lookup_cons name other v _
      · split
        · next hsame =>
            rw [lookup_cons, lookup_cons, hsame]
            split <;> rfl
        · next hne =>
            rw [lookup_cons, lookup_cons, ih]
            -- Only one of the two names can be that of the entry in front.
            by_cases heq : other = name
            · rw [if_pos heq, if_neg (heq ▸ hne), if_pos heq]
            · rw [if_neg heq, if_neg heq]

theorem get?_define (b : Bindings) (name other : Bytes) (v : Value) :
    (b.define name v).get? other = if other = name then some v else b.get? other :=
  lookup_insertEntry name other v b.entries

theorem names_nodup (b : Bindings) : (b.entries.map Prod.fst).Nodup := by
  apply b.ascending.imp
  rintro n _ hlt rfl
  exact List.lt_irrefl n hlt

/-! ## Bindings from a list -/

theorem get?_foldl_define {entries : List (Bytes × Value)} {name : Bytes}
    (h : name ∉ entries.map Prod.fst) (b : Bindings) :
    (entries.foldl (fun b e => b.define e.1 e.2) b).get? name = b.get? name := by
  induction entries generalizing b with
  | nil => rfl
  | cons e entries ih =>
      simp only [List.map_cons, List.mem_cons, not_or] at h
      rw [List.foldl_cons, ih h.2, get?_define, if_neg h.1]

theorem mem_of_get?_ofList {entries : List (Bytes × Value)} {name : Bytes} {v : Value}
    (h : (ofList entries).get? name = some v) : name ∈ entries.map Prod.fst := by
  by_contra hmem
  rw [ofList, get?_foldl_define hmem] at h
  cases h

theorem insertEntry_last {name : Bytes} {v : Value} {entries : List (Bytes × Value)}
    (h : ∀ n ∈ entries.map Prod.fst, n < name) :
    insertEntry name v entries = entries ++ [(name, v)] := by
  induction entries with
  | nil => rfl
  | cons e rest ih =>
      obtain ⟨other, w⟩ := e
      have hbefore : other < name := h other (by simp)
      have hnot : ¬ name < other := fun hbehind => List.lt_irrefl _ (List.lt_trans hbefore hbehind)
      have hne : name ≠ other := fun heq => List.lt_irrefl _ (heq ▸ hbefore)
      rw [insertEntry, if_neg hnot, if_neg hne, ih fun n hn => h n (by simp [hn]),
        List.cons_append]

theorem foldl_define_entries {entries : List (Bytes × Value)} {b : Bindings}
    (h : ((b.entries ++ entries).map Prod.fst).Pairwise (· < ·)) :
    (entries.foldl (fun b e => b.define e.1 e.2) b).entries = b.entries ++ entries := by
  induction entries generalizing b with
  | nil => simp
  | cons e entries ih =>
      have hlast : (b.define e.1 e.2).entries = b.entries ++ [e] := by
        refine insertEntry_last fun n hn => ?_
        rw [List.map_append, List.pairwise_append] at h
        exact h.2.2 n hn e.1 (by simp)
      have hall : ((b.define e.1 e.2).entries ++ entries).map Prod.fst =
          (b.entries ++ e :: entries).map Prod.fst := by simp [hlast]
      rw [List.foldl_cons, ih (hall ▸ h), hlast, List.append_assoc, List.singleton_append]

theorem ofList_entries {entries : List (Bytes × Value)}
    (h : (entries.map Prod.fst).Pairwise (· < ·)) : (ofList entries).entries = entries :=
  foldl_define_entries (b := empty) h

end Bindings

namespace Scopes

/-- All scopes, the current one first. -/
def chain (s : Scopes) : List Bindings := s.inner ++ [s.top]

theorem chain_ne_nil (s : Scopes) : s.chain ≠ [] := by simp [chain]

theorem chain_enclose (s : Scopes) : s.enclose.chain = .empty :: s.chain := rfl

theorem chain_leave {s : Scopes} (h : 1 < s.chain.length) : s.leave.chain = s.chain.tail := by
  obtain ⟨inner, top⟩ := s
  cases inner with
  | nil => simp [chain] at h
  | cons b outer => rfl

end Scopes

end Scribe
