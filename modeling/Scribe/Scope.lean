import Scribe.Value.Basic

/-!
# Variables

Bindings of one scope, in order of their names, and chains of scopes. A look-up goes outward and
ends at the first scope that binds the name; an assignment goes the same way and ends at the
outermost scope at the latest.
-/

namespace Scribe

/-- Names with their values. Each name stands once, and names ascend byte by byte. -/
structure Bindings where
  entries : List (Bytes × Value)
  ascending : (entries.map Prod.fst).Pairwise (· < ·)

namespace Bindings

theorem lt_of_not_lt_of_ne {a b : Bytes} (h : ¬ a < b) (ne : a ≠ b) : b < a :=
  Decidable.byContradiction fun h' =>
    ne (List.le_antisymm (List.not_lt.mp h') (List.not_lt.mp h))

def insertEntry (name : Bytes) (v : Value) : List (Bytes × Value) → List (Bytes × Value)
  | [] => [(name, v)]
  | (other, w) :: rest =>
      if name < other then (name, v) :: (other, w) :: rest
      else if name = other then (name, v) :: rest
      else (other, w) :: insertEntry name v rest

theorem mem_insertEntry_names {name n : Bytes} {v : Value} {entries : List (Bytes × Value)} :
    n ∈ (insertEntry name v entries).map Prod.fst ↔ n = name ∨ n ∈ entries.map Prod.fst := by
  induction entries with
  | nil => simp [insertEntry]
  | cons e rest ih =>
    obtain ⟨other, w⟩ := e
    simp only [insertEntry]
    split
    · simp
    · split
      · next h => subst h; simp
      · simp only [List.map_cons, List.mem_cons, ih]
        exact or_left_comm

theorem insertEntry_ascending (name : Bytes) (v : Value) {entries : List (Bytes × Value)}
    (h : (entries.map Prod.fst).Pairwise (· < ·)) :
    ((insertEntry name v entries).map Prod.fst).Pairwise (· < ·) := by
  induction entries with
  | nil => simp [insertEntry]
  | cons e rest ih =>
    obtain ⟨other, w⟩ := e
    simp only [List.map_cons, List.pairwise_cons] at h
    simp only [insertEntry]
    split
    · next lt =>
      simp only [List.map_cons, List.pairwise_cons, List.mem_cons]
      refine ⟨?_, h⟩
      rintro n (rfl | mem)
      · exact lt
      · exact List.lt_trans lt (h.1 n mem)
    · next notLt =>
      split
      · next eq =>
        subst eq
        simpa only [List.map_cons, List.pairwise_cons] using h
      · next ne =>
        simp only [List.map_cons, List.pairwise_cons]
        refine ⟨?_, ih h.2⟩
        intro n mem
        rcases mem_insertEntry_names.mp mem with rfl | mem
        · exact lt_of_not_lt_of_ne notLt ne
        · exact h.1 n mem

def empty : Bindings := ⟨[], .nil⟩

def get? (b : Bindings) (name : Bytes) : Option Value := b.entries.lookup name

def binds (b : Bindings) (name : Bytes) : Bool := (b.get? name).isSome

def define (b : Bindings) (name : Bytes) (v : Value) : Bindings :=
  ⟨insertEntry name v b.entries, insertEntry_ascending name v b.ascending⟩

def ofList (entries : List (Bytes × Value)) : Bindings :=
  entries.foldl (fun b e => b.define e.1 e.2) empty

def size (b : Bindings) : Nat := b.entries.length

def names (b : Bindings) : List Bytes := b.entries.map Prod.fst

end Bindings

/-- A chain of scopes: the inner ones, innermost first, and the outermost one. -/
structure Scopes where
  inner : List Bindings
  top : Bindings

namespace Scopes

def ofTop (top : Bindings) : Scopes := ⟨[], top⟩

def current (s : Scopes) : Bindings := s.inner.headD s.top

/-- The value of a name in the nearest scope that binds it. -/
def get? (s : Scopes) (name : Bytes) : Option Value :=
  match s.inner.findSome? (·.get? name) with
  | some v => some v
  | none => s.top.get? name

def define (s : Scopes) (name : Bytes) (v : Value) : Scopes :=
  match s.inner with
  | [] => { s with top := s.top.define name v }
  | b :: outer => { s with inner := b.define name v :: outer }

def assignIn (name : Bytes) (v : Value) : List Bindings → Option (List Bindings)
  | [] => none
  | b :: outer =>
      if b.binds name then some (b.define name v :: outer)
      else (assignIn name v outer).map (b :: ·)

/-- Replaces the value of a name in the nearest scope that binds it; a name that none binds is
bound in the outermost scope. -/
def assign (s : Scopes) (name : Bytes) (v : Value) : Scopes :=
  match assignIn name v s.inner with
  | some inner => { s with inner }
  | none => { s with top := s.top.define name v }

def enclose (s : Scopes) : Scopes := { s with inner := Bindings.empty :: s.inner }

/-- The scope around the current one, if the current one is not the outermost. -/
def parent? (s : Scopes) : Option Scopes :=
  match s.inner with
  | [] => none
  | _ :: outer => some { s with inner := outer }

/-- Leaves the current scope; the outermost one is never left. -/
def leave (s : Scopes) : Scopes := { s with inner := s.inner.tail }

end Scopes

end Scribe
