import Mathlib
import Scribe.Proofs.Scope

/-!
# Variables in a chain of scopes

Every scope of a chain sees itself and the scopes around it. An assignment from one of them gives
its name a value there: the nearest scope that binds the name changes, or else the outermost one
binds it. What other names stand for is the same as before from every scope of the chain, also from
those further inside.
-/

namespace Scribe

namespace Bindings

theorem mem_iff_lookup {entries : List (Bytes × Value)} (h : (entries.map Prod.fst).Nodup)
    {name : Bytes} {v : Value} : (name, v) ∈ entries ↔ entries.lookup name = some v := by
  induction entries with
  | nil => simp
  | cons e rest ih =>
      obtain ⟨first, w⟩ := e
      rw [List.map_cons, List.nodup_cons] at h
      rw [lookup_cons, List.mem_cons, Prod.mk.injEq, ih h.2]
      by_cases heq : name = first
      · -- The name stands in front, so it does not stand behind.
        have hrest : rest.lookup name ≠ some v := fun hfound =>
          h.1 (heq ▸ List.mem_map.mpr ⟨(name, v), (ih h.2).mpr hfound, rfl⟩)
        simp [heq, heq ▸ hrest, eq_comm]
      · simp [heq]

theorem binds_iff {b : Bindings} {name : Bytes} : b.binds name = true ↔ name ∈ b.names := by
  rw [binds, Option.isSome_iff_exists, names, List.mem_map]
  constructor
  · rintro ⟨v, hv⟩
    exact ⟨(name, v), (mem_iff_lookup b.names_nodup).mpr hv, rfl⟩
  · rintro ⟨⟨n, v⟩, hmem, rfl⟩
    exact ⟨v, (mem_iff_lookup b.names_nodup).mp hmem⟩

theorem length_insertEntry {name : Bytes} {v : Value} {entries : List (Bytes × Value)}
    (h : (entries.map Prod.fst).Pairwise (· < ·)) :
    (insertEntry name v entries).length =
      if name ∈ entries.map Prod.fst then entries.length else entries.length + 1 := by
  induction entries with
  | nil => rfl
  | cons e rest ih =>
      obtain ⟨first, w⟩ := e
      rw [List.map_cons, List.pairwise_cons] at h
      rw [insertEntry, List.map_cons]
      split
      · next hbefore =>
          have hnew : name ∉ first :: rest.map Prod.fst := by
            rw [List.mem_cons, not_or]
            refine ⟨fun heq => List.lt_irrefl _ (heq ▸ hbefore), fun hmem => ?_⟩
            exact List.lt_irrefl _ (List.lt_trans hbefore (h.1 name hmem))
          rw [if_neg hnew, List.length_cons]
      · split
        · next heq => rw [if_pos (heq ▸ List.mem_cons_self), List.length_cons, List.length_cons]
        · next hne =>
            rw [List.length_cons, ih h.2]
            simp only [List.mem_cons, hne, false_or, List.length_cons]
            split <;> rfl

theorem size_define (b : Bindings) (name : Bytes) (v : Value) :
    (b.define name v).size = if b.binds name then b.size else b.size + 1 := by
  simp only [binds_iff]
  exact length_insertEntry b.ascending

/-- The entries are the one list of what is bound that follows the order of names. -/
theorem eq_entries_iff {b : Bindings} {entries : List (Bytes × Value)} :
    entries = b.entries ↔
      (entries.map Prod.fst).Pairwise (· < ·) ∧
        ∀ name v, (name, v) ∈ entries ↔ b.get? name = some v := by
  constructor
  · rintro rfl
    exact ⟨b.ascending, fun name v => mem_iff_lookup b.names_nodup⟩
  · rintro ⟨hascending, hbound⟩
    have hnames : (entries.map Prod.fst).Nodup := names_nodup ⟨entries, hascending⟩
    have hperm : entries.Perm b.entries := by
      rw [List.perm_ext_iff_of_nodup hnames.of_map b.names_nodup.of_map]
      rintro ⟨name, v⟩
      rw [hbound, mem_iff_lookup b.names_nodup, get?]
    refine hperm.eq_of_pairwise ?_ (List.pairwise_map.mp hascending)
      (List.pairwise_map.mp b.ascending)
    intro e e' _ _ hlt hgt
    exact absurd (List.lt_trans hlt hgt) (List.lt_irrefl _)

end Bindings

namespace Scopes

/-- The chain as the `k`-th of its scopes sees it. -/
def outward (s : Scopes) : Nat → Scopes
  | 0 => s
  | k + 1 => s.leave.outward k

/-- The chain after a change from its `k`-th scope. The scopes further inside are left alone. -/
def onward (s : Scopes) (k : Nat) (change : Scopes → Scopes) : Scopes :=
  { change (s.outward k) with inner := s.inner.take k ++ (change (s.outward k)).inner }

theorem outward_eq (s : Scopes) (k : Nat) : s.outward k = ⟨s.inner.drop k, s.top⟩ := by
  induction k generalizing s with
  | zero => rfl
  | succ k ih => rw [outward, ih, leave, List.drop_tail]

theorem lt_length_chain_iff {s : Scopes} {k : Nat} : k < s.chain.length ↔ k ≤ s.inner.length := by
  rw [chain, List.length_append, List.length_singleton, Nat.lt_succ_iff]

theorem chain_outward {s : Scopes} {k : Nat} (hk : k < s.chain.length) :
    (s.outward k).chain = s.chain.drop k := by
  rw [outward_eq, chain, chain, List.drop_append_of_le_length (lt_length_chain_iff.mp hk)]

theorem chain_onward {s : Scopes} {k : Nat} (hk : k < s.chain.length) (change : Scopes → Scopes) :
    (s.onward k change).chain = s.chain.take k ++ (change (s.outward k)).chain := by
  rw [onward, chain, chain, chain, List.take_append_of_le_length (lt_length_chain_iff.mp hk),
    List.append_assoc]

theorem outward_onward {s : Scopes} {k : Nat} (hk : k < s.chain.length)
    (change : Scopes → Scopes) : (s.onward k change).outward k = change (s.outward k) := by
  rw [outward_eq, onward, List.drop_left' (by simpa using lt_length_chain_iff.mp hk)]

/-! ## Look-up -/

theorem get?_cons (b : Bindings) (outer : List Bindings) (top : Bindings) (name : Bytes) :
    get? ⟨b :: outer, top⟩ name = (b.get? name).or (get? ⟨outer, top⟩ name) := by
  rw [get?, get?, List.findSome?_cons]
  cases b.get? name <;> rfl

/-- A look-up goes by the values that the scopes of the chain have for the name. -/
theorem get?_eq (s : Scopes) (name : Bytes) :
    s.get? name = (s.chain.map (·.get? name)).findSome? id := by
  obtain ⟨inner, top⟩ := s
  induction inner with
  | nil => cases h : top.get? name <;> simp [get?, chain, h]
  | cons b outer ih =>
      rw [get?_cons, ih, chain, chain, List.cons_append, List.map_cons, List.findSome?_cons]
      cases b.get? name <;> rfl

/-! ## Assignment -/

theorem assign_cons (b : Bindings) (outer : List Bindings) (top : Bindings) (name : Bytes)
    (v : Value) :
    assign ⟨b :: outer, top⟩ name v =
      if b.binds name then ⟨b.define name v :: outer, top⟩
      else
        { assign ⟨outer, top⟩ name v with inner := b :: (assign ⟨outer, top⟩ name v).inner } := by
  rw [assign, assign, assignIn]
  by_cases hbinds : b.binds name = true
  · rw [if_pos hbinds, if_pos hbinds]
  · rw [if_neg hbinds, if_neg hbinds]
    cases assignIn name v outer <;> rfl

/-- The nearest scope that binds the name is the only one to change. -/
theorem chain_assign_of_bound {s : Scopes} {name : Bytes} {before after : List Bindings}
    {b : Bindings} (hchain : s.chain = before ++ b :: after)
    (hbefore : ∀ c ∈ before, c.binds name = false) (hb : b.binds name = true) (v : Value) :
    (s.assign name v).chain = before ++ b.define name v :: after := by
  obtain ⟨inner, top⟩ := s
  induction inner generalizing before with
  | nil =>
      cases before with
      | nil =>
          obtain ⟨rfl, rfl⟩ := List.cons_eq_cons.mp hchain
          rfl
      | cons c before => simp [chain] at hchain
  | cons c outer ih =>
      rw [assign_cons]
      cases before with
      | nil =>
          obtain ⟨rfl, rfl⟩ := List.cons_eq_cons.mp hchain
          rw [if_pos hb]
          rfl
      | cons d before =>
          obtain ⟨rfl, hrest⟩ := List.cons_eq_cons.mp hchain
          rw [List.forall_mem_cons] at hbefore
          rw [if_neg (by simp [hbefore.1])]
          exact congrArg (c :: ·) (ih hbefore.2 hrest)

/-- If no inner scope binds the name, the outermost one does then. -/
theorem chain_assign_of_unbound {s : Scopes} {name : Bytes}
    (h : ∀ c ∈ s.inner, c.binds name = false) (v : Value) :
    (s.assign name v).chain = s.inner ++ [s.top.define name v] := by
  obtain ⟨inner, top⟩ := s
  induction inner with
  | nil => rfl
  | cons b outer ih =>
      rw [List.forall_mem_cons] at h
      rw [assign_cons, if_neg (by simp [h.1])]
      exact congrArg (b :: ·) (ih h.2)

theorem get?_assign_self (s : Scopes) (name : Bytes) (v : Value) :
    (s.assign name v).get? name = some v := by
  obtain ⟨inner, top⟩ := s
  induction inner with
  | nil => exact (top.get?_define name name v).trans (if_pos rfl)
  | cons b outer ih =>
      rw [assign_cons]
      split
      · rw [get?_cons, Bindings.get?_define, if_pos rfl, Option.some_or]
      · next hbinds =>
          rw [Bindings.binds, Option.not_isSome_iff_eq_none] at hbinds
          rw [get?_cons, hbinds, Option.none_or]
          exact ih

/-- In each scope, every other name has the value that it had. -/
theorem map_get?_assign (s : Scopes) {name other : Bytes} (hne : other ≠ name) (v : Value) :
    (s.assign name v).chain.map (·.get? other) = s.chain.map (·.get? other) := by
  obtain ⟨inner, top⟩ := s
  induction inner with
  | nil => simp [assign, assignIn, chain, Bindings.get?_define, hne]
  | cons b outer ih =>
      rw [assign_cons]
      split
      · simp [chain, Bindings.get?_define, hne]
      · exact congrArg (b.get? other :: ·) ih

/-! ## The laws -/

/-- Other names mean the same from every scope of the chain. -/
theorem get?_outward_onward_assign {s : Scopes} {k : Nat} (hk : k < s.chain.length)
    {name other : Bytes} (hne : other ≠ name) (v : Value) {i : Nat} (hi : i < s.chain.length) :
    ((s.onward k (·.assign name v)).outward i).get? other = (s.outward i).get? other := by
  have hsame : (s.onward k (·.assign name v)).chain.map (·.get? other) =
      s.chain.map (·.get? other) := by
    rw [chain_onward hk, List.map_append, map_get?_assign _ hne, chain_outward hk,
      ← List.map_append, List.take_append_drop]
  have hlength := congrArg List.length hsame
  rw [List.length_map, List.length_map] at hlength
  rw [get?_eq, get?_eq, chain_outward hi, chain_outward (hlength ▸ hi), List.map_drop,
    List.map_drop, hsame]

theorem chain_onward_define {s : Scopes} {k : Nat} (hk : k < s.chain.length) (name : Bytes)
    (v : Value) :
    (s.onward k (·.define name v)).chain = s.chain.set k (s.chain[k].define name v) := by
  rw [chain_onward hk, List.set_eq_take_append_cons_drop, if_pos hk]
  have hseen : (s.outward k).chain = s.chain[k] :: s.chain.drop (k + 1) := by
    rw [chain_outward hk, List.drop_eq_getElem_cons hk]
  generalize s.outward k = t at hseen
  obtain ⟨inner, top⟩ := t
  cases inner <;> obtain ⟨hfirst, hrest⟩ := List.cons_eq_cons.mp hseen <;>
    exact congrArg₂ (fun b l => s.chain.take k ++ b.define name v :: l) hfirst hrest

theorem get?_define_self (s : Scopes) (name : Bytes) (v : Value) :
    (s.define name v).get? name = some v := by
  obtain ⟨inner, top⟩ := s
  cases inner with
  | nil => exact (top.get?_define name name v).trans (if_pos rfl)
  | cons b outer =>
      rw [define, get?_cons, Bindings.get?_define, if_pos rfl, Option.some_or]

theorem exists_nearest {c : List Bindings} {name : Bytes} (h : ∃ b ∈ c, b.binds name = true) :
    ∃ before b after, c = before ++ b :: after ∧ (∀ d ∈ before, d.binds name = false) ∧
      b.binds name = true := by
  obtain ⟨b, hfound⟩ := Option.isSome_iff_exists.mp (List.find?_isSome.mpr h)
  obtain ⟨hb, before, after, hc, hbefore⟩ := List.find?_eq_some_iff_append.mp hfound
  exact ⟨before, b, after, hc, fun d hd => by simpa using hbefore d hd, hb⟩

/-- The outermost scope alone gets a binding more. -/
theorem onward_assign_of_unbound {s : Scopes} {k : Nat} (hk : k < s.chain.length) {name : Bytes}
    (h : ∀ b ∈ s.chain.drop k, b.binds name = false) (v : Value) :
    (s.onward k (·.assign name v)).top.size = s.top.size + 1 ∧
      (s.onward k (·.assign name v)).chain = s.inner ++ [s.top.define name v] := by
  have hchain : (s.onward k (·.assign name v)).chain = s.inner ++ [s.top.define name v] := by
    have hseen : ∀ b ∈ (s.outward k).inner, b.binds name = false := by
      intro b hb
      refine h b ?_
      rw [← chain_outward hk]
      exact List.mem_append_left _ hb
    rw [chain_onward hk, chain_assign_of_unbound hseen, outward_eq, chain,
      List.take_append_of_le_length (lt_length_chain_iff.mp hk), ← List.append_assoc,
      List.take_append_drop]
  have htop : (s.onward k (·.assign name v)).top = s.top.define name v := by
    simpa [chain] using congrArg List.getLast? hchain
  have hnew : s.top.binds name = false := by
    refine h s.top ?_
    rw [← chain_outward hk, outward_eq]
    exact List.mem_append_right _ List.mem_cons_self
  exact ⟨by rw [htop, Bindings.size_define, if_neg (by simp [hnew])], hchain⟩

/-- After an assignment from a scope of a chain, the name has its value there. If a scope from there
outward bound it, the nearest one that did is the only one to change, and no number of bindings
does; else it is bound in the outermost scope, besides what was. Other names mean the same as before
from every scope. A definition changes the scope in which it is made, in the value of its name, and
no other; and the entries of a scope are its bindings, each once, in the order of their names. -/
theorem variables_in_chain {s : Scopes} {k : Nat} (hk : k < s.chain.length) (name : Bytes)
    (v : Value) :
    let assigned := s.onward k (·.assign name v)
    let defined := s.onward k (·.define name v)
    ((assigned.outward k).get? name = some v ∧
      ((∃ b ∈ s.chain.drop k, b.binds name = true) →
        assigned.chain.map Bindings.size = s.chain.map Bindings.size ∧
        ∃ before b after, s.chain.drop k = before ++ b :: after ∧
          (∀ c ∈ before, c.binds name = false) ∧ b.binds name = true ∧
          assigned.chain = s.chain.take k ++ (before ++ b.define name v :: after)) ∧
      ((∀ b ∈ s.chain.drop k, b.binds name = false) →
        assigned.top.size = s.top.size + 1 ∧
        assigned.chain = s.inner ++ [s.top.define name v]) ∧
      ∀ i < s.chain.length, ∀ other, other ≠ name →
        (assigned.outward i).get? other = (s.outward i).get? other) ∧
    ((defined.outward k).get? name = some v ∧
      defined.chain = s.chain.set k (s.chain[k].define name v)) ∧
    ∀ b : Bindings,
      (∀ other, (b.define name v).get? other = if other = name then some v else b.get? other) ∧
      ∀ entries, entries = b.entries ↔
        (entries.map Prod.fst).Pairwise (· < ·) ∧
          ∀ n w, (n, w) ∈ entries ↔ b.get? n = some w := by
  intro assigned defined
  refine ⟨⟨?_, fun hbound => ?_, fun hunbound => ?_, fun i hi other hne => ?_⟩, ⟨?_, ?_⟩,
    fun b => ⟨fun other => b.get?_define name other v, fun _ => Bindings.eq_entries_iff⟩⟩
  · rw [outward_onward hk]
    exact get?_assign_self _ name v
  · obtain ⟨before, b, after, hseen, hbefore, hb⟩ := exists_nearest hbound
    have hchain : assigned.chain = s.chain.take k ++ (before ++ b.define name v :: after) := by
      rw [chain_onward hk, chain_assign_of_bound ((chain_outward hk).trans hseen) hbefore hb]
    refine ⟨?_, before, b, after, hseen, hbefore, hb, hchain⟩
    have hsize : (b.define name v).size = b.size := by rw [Bindings.size_define, if_pos hb]
    calc assigned.chain.map Bindings.size
        = (s.chain.take k ++ (before ++ b :: after)).map Bindings.size := by simp [hchain, hsize]
      _ = s.chain.map Bindings.size := by rw [← hseen, List.take_append_drop]
  · exact onward_assign_of_unbound hk hunbound v
  · exact get?_outward_onward_assign hk hne v hi
  · rw [outward_onward hk]
    exact get?_define_self _ name v
  · exact chain_onward_define hk name v

/-- From the middle one of three scopes, an assignment passes over the binding further inside and
changes the outermost one. -/
theorem assigned_past_shadow :
    let x := utf8 "x"
    let one : Bindings := Bindings.empty.define x (.number 1)
    let two : Bindings := Bindings.empty.define x (.number 2)
    let s : Scopes := ⟨[one, .empty], two⟩
    let assigned := s.onward 1 (·.assign x (.number 3))
    1 < s.chain.length ∧ (∃ b ∈ s.chain.drop 1, b.binds x = true) ∧
      (assigned.outward 1).get? x = some (.number 3) ∧
      assigned.chain.map Bindings.size = [1, 0, 1] ∧
      (assigned.outward 0).get? (utf8 "y") = (s.outward 0).get? (utf8 "y") ∧
      (assigned.outward 0).get? x = some (.number 1) := by
  intro x one two s assigned
  have hk : 1 < s.chain.length := by decide
  have hbound : ∃ b ∈ s.chain.drop 1, b.binds x = true :=
    ⟨two, .tail _ (.head _), by decide⟩
  obtain ⟨⟨hvalue, hnearest, -, hothers⟩, -⟩ := variables_in_chain hk x (.number 3)
  exact ⟨hk, hbound, hvalue, (hnearest hbound).1, hothers 0 (by decide) _ (by decide), rfl⟩

end Scopes

end Scribe
