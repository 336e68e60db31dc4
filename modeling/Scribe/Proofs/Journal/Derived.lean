import Scribe.Journal.Pretty

/-!
# Derived writers

A writer of pretty records may be derived from another one by attributes that every record carries
and by groups that stay open. The leaves of such attributes are found when the writer is derived,
under the path of the groups that are open then, while the leaves of a group within a record are
found when the record is written. Both ways come to the same: a derived writer writes what the first
one does for attributes that are nested as the derivations were.
-/

namespace Scribe

namespace Pretty

inductive Derivation where
  | attrs (more : List Attr)
  | group (name : Bytes)

def Derivation.apply (h : Pretty) : Derivation → Pretty
  | .attrs more => h.withAttrs more
  | .group name => h.withGroup name

def derived (h : Pretty) (steps : List Derivation) : Pretty := steps.foldl Derivation.apply h

/-- The attributes of a record with those of the steps in front of them, each group around all that
came after it. -/
def nested : List Derivation → List Attr → List Attr
  | [], attrs => attrs
  | .attrs more :: steps, attrs => more ++ nested steps attrs
  | .group name :: steps, attrs => [(name, .group (nested steps attrs))]

/-! ## Leaves of attributes -/

theorem allShown_append (attrs more : List Attr) :
    Field.allShown (attrs ++ more) = Field.allShown attrs ++ Field.allShown more := by
  induction attrs with
  | nil => rfl
  | cons attr attrs ih =>
      simp only [List.cons_append, Field.allShown]
      split
      · exact ih
      · rw [ih, List.cons_append]

theorem flattenAll_append (path : Bytes) (members more : List (Bytes × Shown)) :
    flattenAll path (members ++ more) = flattenAll path members ++ flattenAll path more := by
  induction members with
  | nil => rfl
  | cons member members ih => rw [List.cons_append, flattenAll, flattenAll, ih, List.append_assoc]

theorem entries_append (path : Bytes) (attrs more : List Attr) :
    entries path (attrs ++ more) = entries path attrs ++ entries path more := by
  rw [entries, allShown_append, flattenAll_append]
  rfl

/-- The path behind which the leaves of a group stand. -/
def pathIn (path name : Bytes) : Bytes := if name.isEmpty then path else path ++ name ++ [0x2E]

/-- A group has the leaves of its attributes. One that has no members is left out, and it has no
leaves. -/
theorem entries_group (path name : Bytes) (attrs : List Attr) :
    entries path [(name, .group attrs)] = entries (pathIn path name) attrs := by
  simp only [entries, Field.allShown, Field.isGroup, Field.shown, Bool.true_and]
  split
  · next hempty =>
      cases hmembers : Field.allShown attrs with
      | nil => rfl
      | cons member members => simp [hmembers, Shown.isEmptyGroup] at hempty
  · rw [flattenAll, flattenAll, List.append_nil, flatten, pathIn]

theorem path_withGroup (h : Pretty) (name : Bytes) :
    (h.withGroup name).path = pathIn h.path name ∧ (h.withGroup name).held = h.held := by
  unfold withGroup pathIn
  split <;> exact ⟨rfl, rfl⟩

/-! ## Records -/

/-- The leaves that a record has besides those it starts with. -/
def leaves (h : Pretty) (attrs : List Attr) : List Entry := h.held ++ entries h.path attrs

/-- One step back: the record of a writer behind a step is one of the writer before it. -/
theorem leaves_apply (h : Pretty) (step : Derivation) (attrs : List Attr) :
    (step.apply h).leaves attrs = h.leaves (nested [step] attrs) := by
  cases step with
  | attrs more => rw [leaves, leaves, nested, nested, entries_append, ← List.append_assoc]; rfl
  | group name =>
      obtain ⟨hpath, hheld⟩ := path_withGroup h name
      rw [leaves, leaves, nested, nested, entries_group, Derivation.apply, hpath, hheld]

theorem nested_cons (step : Derivation) (steps : List Derivation) (attrs : List Attr) :
    nested (step :: steps) attrs = nested [step] (nested steps attrs) := by
  cases step <;> rfl

theorem leaves_derived (h : Pretty) (steps : List Derivation) (attrs : List Attr) :
    (h.derived steps).leaves attrs = h.leaves (nested steps attrs) := by
  induction steps generalizing h with
  | nil => rfl
  | cons step steps ih =>
      calc (h.derived (step :: steps)).leaves attrs
          = (step.apply h).leaves (nested steps attrs) := ih (step.apply h)
        _ = h.leaves (nested [step] (nested steps attrs)) := leaves_apply h step _
        _ = h.leaves (nested (step :: steps) attrs) := by rw [← nested_cons]

theorem fields_eq (h : Pretty) (time : Option Bytes) (level : Level) (message : Bytes)
    (attrs : List Attr) :
    h.fields time level message attrs =
      (time.map fun text => (timeKey, Leaf.text text)).toList ++
        [(levelKey, .text level.label), (messageKey, .text message)] ++ h.leaves attrs := by
  rw [fields, leaves, List.append_assoc]

/-- A derived writer writes, in either format, what the first writer does for the record with its
attributes nested in those of the steps. -/
theorem record_derived (h : Pretty) (steps : List Derivation) (json : Bool) (time : Option Bytes)
    (level : Level) (message : Bytes) (attrs : List Attr) :
    (h.derived steps).record json time level message attrs =
      h.record json time level message (nested steps attrs) := by
  simp only [record, fields_eq, leaves_derived]

/-- A group without a name adds nothing to the keys, and one with a name stands before the keys of
what comes after it only. -/
example :
    ({} : Pretty).derived
        [.attrs [(utf8 "a", .int 1)], .group [], .group (utf8 "g"), .attrs [(utf8 "b", .null)]] =
      { path := utf8 "g.", held := [(utf8 "a", .int 1), (utf8 "g.b", .null)] } := rfl

end Pretty

end Scribe
