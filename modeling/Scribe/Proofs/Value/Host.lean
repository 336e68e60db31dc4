import Mathlib
import Scribe.Proofs.Document.Nesting
import Scribe.Value.Accept

/-!
# Values outside of scripts

A value that is handed out as host data and accepted again is the same value. Its document is that
host data as long as its numbers are finite, and holds no other numbers. Host data is accepted
exactly when no item of it, in lists at any depth, is of a type that scripts do not know.
-/

namespace Scribe

/-! ## Host data of values -/

namespace Value

mutual

theorem ofHost_toHost : (v : Value) → ofHost v.toHost = .ok v
  | .null | .boolean _ | .number _ | .string _ => rfl
  | .array vs => by rw [toHost, ofHost, ofHostList_toHostList vs]

theorem ofHostList_toHostList : (vs : List Value) → ofHostList (toHostList vs) = .ok vs
  | [] => rfl
  | v :: vs => by
      simp only [toHostList, ofHostList, ofHost_toHost v, ofHostList_toHostList vs]

end

end Value

namespace Document

mutual

/-- The host data that a document is. A record is none, since scripts know no such values. -/
def toHost? : Document → Option Host
  | .null => some .nothing
  | .boolean b => some (.boolean b)
  | .integer n => some (.signed (.ofInt n))
  | .number f => some (.real f)
  | .text s => some (.text s)
  | .list items => (toHosts? items).map .list
  | .record _ => none

def toHosts? : List Document → Option (List Host)
  | [] => some []
  | d :: ds =>
      match toHost? d, toHosts? ds with
      | some x, some xs => some (x :: xs)
      | _, _ => none

end

end Document

namespace Value

open Document (toHost? toHosts?)

mutual

/-- Numbers that are not finite are what a value's document and its host data differ in. -/
theorem toHost?_toDocument_iff : (v : Value) →
    (toHost? v.toDocument = some v.toHost ↔ ∀ f ∈ v.numbers, IsFinite f)
  | .null | .boolean _ | .string _ => iff_of_true rfl (List.forall_mem_nil _)
  | .number f => by
      rw [numbers, List.forall_mem_singleton, isFinite_iff, toDocument, toHost]
      cases f.isNaN || f.isInf <;> simp [toHost?]
  | .array vs => by
      rw [numbers, ← toHosts?_toDocuments_iff vs, toDocument, toHost, toHost?]
      cases toHosts? (toDocuments vs) <;> simp

theorem toHosts?_toDocuments_iff : (vs : List Value) →
    (toHosts? (toDocuments vs) = some (toHostList vs) ↔ ∀ f ∈ numbersOf vs, IsFinite f)
  | [] => iff_of_true rfl (List.forall_mem_nil _)
  | v :: vs => by
      rw [numbersOf, List.forall_mem_append, ← toHost?_toDocument_iff v,
        ← toHosts?_toDocuments_iff vs, toDocuments, toHostList, toHosts?]
      cases toHost? v.toDocument <;> cases toHosts? (toDocuments vs) <;> simp

end

end Value

/-! ## What is accepted -/

namespace Host

mutual

/-- The unknown types among the items of host data, in lists at any depth. -/
def unknownTypes : Host → List Bytes
  | .unsupported typeName => [typeName]
  | .list items => unknownTypesOf items
  | .nothing | .value _ | .boolean _ | .text _ | .real _ | .single _ | .signed _ | .unsigned _ => []

def unknownTypesOf : List Host → List Bytes
  | [] => []
  | x :: xs => x.unknownTypes ++ unknownTypesOf xs

end

/-- Host data stands for a value. A list stands for the values of its items in their order. -/
inductive StandsFor : Host → Value → Prop
  | nothing : StandsFor .nothing .null
  | value (v : Value) : StandsFor (.value v) v
  | boolean (b : Bool) : StandsFor (.boolean b) (.boolean b)
  | text (s : Bytes) : StandsFor (.text s) (.string s)
  | real (f : Float) : StandsFor (.real f) (.number f)
  | single (f : Float32) : StandsFor (.single f) (.number f.toFloat)
  | signed (n : Int64) : StandsFor (.signed n) (.number n.toFloat)
  | unsigned (n : UInt64) : StandsFor (.unsigned n) (.number n.toFloat)
  | list {items : List Host} {vs : List Value} (h : List.Forall₂ StandsFor items vs) :
      StandsFor (.list items) (.array vs)

mutual

theorem ofHost_eq_error_iff {typeName : Bytes} : (x : Host) →
    (Value.ofHost x = .error typeName ↔ x.unknownTypes.head? = some typeName)
  | .nothing | .value _ | .boolean _ | .text _ | .real _ | .single _ | .signed _ | .unsigned _ => by
      simp [Value.ofHost, unknownTypes]
  | .unsupported name => by simp [Value.ofHost, unknownTypes]
  | .list items => by
      rw [unknownTypes, ← ofHostList_eq_error_iff items, Value.ofHost]
      cases Value.ofHostList items <;> simp

theorem ofHostList_eq_error_iff {typeName : Bytes} : (xs : List Host) →
    (Value.ofHostList xs = .error typeName ↔ (unknownTypesOf xs).head? = some typeName)
  | [] => by simp [Value.ofHostList, unknownTypesOf]
  | x :: xs => by
      rw [Value.ofHostList, unknownTypesOf, List.head?_append]
      cases hx : Value.ofHost x with
      | error name =>
          rw [(ofHost_eq_error_iff x).mp hx]
          simp
      | ok v =>
          have hknown : x.unknownTypes.head? = none := by
            refine Option.eq_none_iff_forall_ne_some.mpr fun name hname => ?_
            rw [(ofHost_eq_error_iff x).mpr hname] at hx
            cases hx
          rw [hknown, Option.none_or, ← ofHostList_eq_error_iff xs]
          cases Value.ofHostList xs <;> simp

end

mutual

theorem ofHost_eq_ok_iff {v : Value} : (x : Host) → (Value.ofHost x = .ok v ↔ x.StandsFor v)
  | .nothing | .value _ | .boolean _ | .text _ | .real _ | .single _ | .signed _ | .unsigned _ =>
      ⟨fun h => by cases h; constructor, fun h => by cases h; rfl⟩
  | .unsupported _ => ⟨nofun, nofun⟩
  | .list items => by
      rw [Value.ofHost]
      constructor
      · intro h
        cases hitems : Value.ofHostList items with
        | error typeName => rw [hitems] at h; cases h
        | ok vs =>
            rw [hitems] at h
            cases h
            exact .list ((ofHostList_eq_ok_iff items).mp hitems)
      · rintro (_ | _ | _ | _ | _ | _ | _ | _ | hitems)
        rw [(ofHostList_eq_ok_iff items).mpr hitems]

theorem ofHostList_eq_ok_iff {vs : List Value} : (xs : List Host) →
    (Value.ofHostList xs = .ok vs ↔ List.Forall₂ StandsFor xs vs)
  | [] => ⟨fun h => by cases h; exact .nil, fun h => by cases h; rfl⟩
  | x :: xs => by
      rw [Value.ofHostList, List.forall₂_cons_left_iff]
      simp only [← ofHost_eq_ok_iff x, ← ofHostList_eq_ok_iff xs]
      cases Value.ofHost x with
      | error typeName => simp
      | ok v => cases Value.ofHostList xs <;> simp [eq_comm]

end

theorem accept_eq_ok_iff {x : Host} {v : Value} : x.accept = .ok v ↔ x.StandsFor v := by
  rw [← ofHost_eq_ok_iff, accept]
  cases Value.ofHost x <;> simp

/-- The failure names the first of the unknown types. -/
theorem accept_eq_error_iff {x : Host} {failure : Failure} :
    x.accept = .error failure ↔
      ∃ typeName, x.unknownTypes.head? = some typeName ∧
        failure = Fault.invalidValueType.failure.withAttrs [(utf8 "type", .text typeName)] := by
  simp only [← ofHost_eq_error_iff, accept]
  cases Value.ofHost x <;> simp [eq_comm]

theorem accept_toHost (v : Value) : v.toHost.accept = .ok v := by
  rw [accept, Value.ofHost_toHost]

end Host

/-- Nothing is lost between values and host data. A value is accepted as itself. Its document has
finite numbers only and is its host data if the value's own numbers are finite. What is written of
a script is refused for its depth only. Host data is refused for an item of an unknown type only,
and stands for the accepted value otherwise. -/
theorem Value.conversions_faithful (v : Value) (x : Host) :
    v.toHost.accept = .ok v ∧
      v.toDocument.Finite ∧
      (v.toDocument.toHost? = some v.toHost ↔ ∀ f ∈ v.numbers, IsFinite f) ∧
      (∀ (d : Document) (indent : Int), d.OfScript →
        d.json? indent =
          if d.height (0 < indent) ≤ Json.maxDepth then .ok (d.json indent)
          else .error .tooDeep) ∧
      (∀ failure, x.accept = .error failure ↔
        ∃ typeName, x.unknownTypes.head? = some typeName ∧
          failure = Fault.invalidValueType.failure.withAttrs [(utf8 "type", .text typeName)]) ∧
      ∀ w, x.accept = .ok w ↔ x.StandsFor w :=
  ⟨Host.accept_toHost v, v.finite_toDocument, toHost?_toDocument_iff v,
    fun _ indent h => Document.json?_of_finite h.finite indent,
    fun _ => Host.accept_eq_error_iff, fun _ => Host.accept_eq_ok_iff⟩

/-- An array in an array is written. -/
theorem Value.nested_array_written :
    let v : Value := .array [.null, .array []]
    v.toDocument.json? 0 = .ok (v.toDocument.json 0) := by
  intro v
  obtain ⟨-, -, -, hwritten, -⟩ := conversions_faithful v .nothing
  rw [hwritten _ 0 (.value v), if_pos (by decide)]

namespace Stmt

/-- A block with so many further blocks in each other. -/
def nestedBlocks : Nat → Stmt
  | 0 => .block { kind := .leftBrace, lexeme := utf8 "\x7b", line := 1 } []
  | n + 1 => .block { kind := .leftBrace, lexeme := utf8 "\x7b", line := 1 } [nestedBlocks n]

/-- A block is a record that holds a list. The innermost list is empty. -/
theorem height_nestedBlocks (n : Nat) : (nestedBlocks n).toDocument.height false = 2 * n + 1 := by
  induction n with
  | zero => rfl
  | succ n ih =>
      rw [nestedBlocks, toDocument, toDocuments, toDocuments]
      simp [Document.height, Document.heightIn, Document.heightOf, Document.field,
        Document.ofString, ih]
      omega

theorem json?_nestedBlocks {n : Nat} (h : Json.maxDepth ≤ 2 * n + 1) :
    (Document.list (toDocuments [nestedBlocks n])).json? 0 = .error .tooDeep := by
  rw [Document.json?_of_finite (Document.OfScript.stmts [nestedBlocks n]).finite, if_neg]
  rw [toDocuments, toDocuments]
  simp [Document.height, Document.heightOf, height_nestedBlocks]
  omega

/-- A script of blocks that all stand in each other may be too deep to be written. -/
theorem nestedBlocks_not_written :
    ¬ ∀ (d : Document) (indent : Int), d.OfScript → ∃ text, d.json? indent = .ok text := by
  intro h
  obtain ⟨text, htext⟩ := h (.list (toDocuments [nestedBlocks 5999])) 0 (.stmts _)
  rw [json?_nestedBlocks (by decide)] at htext
  cases htext

end Stmt

end Scribe
