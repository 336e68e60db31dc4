import Mathlib
import Scribe.Document.Write
import Scribe.Proofs.Value.Equal

/-!
# Documents that can be written

A document has a JSON text exactly when its numbers are finite and its lists and records do not
stand too deep in each other. The documents of tokens, trees, values and bindings hold finite
numbers only, so nothing but depth can keep them from being written.
-/

namespace Scribe

/-- Neither infinite nor not-a-number. -/
def IsFinite (f : Float) : Prop := f.isNaN = false ∧ f.isInf = false

theorem isFinite_iff {f : Float} : IsFinite f ↔ (f.isNaN || f.isInf) = false := by
  rw [IsFinite, Bool.or_eq_false_iff]

namespace Document

mutual

def numbers : Document → List Float
  | .number f => [f]
  | .list items => numbersOf items
  | .record fields => numbersIn fields
  | .null | .boolean _ | .integer _ | .text _ => []

def numbersOf : List Document → List Float
  | [] => []
  | d :: ds => d.numbers ++ numbersOf ds

def numbersIn : List (Bytes × Document) → List Float
  | [] => []
  | (_, d) :: fields => d.numbers ++ numbersIn fields

end

mutual

/-- How many lists and records stand in each other. An empty one counts only where it is laid
out. -/
def height (laidOut : Bool) : Document → Nat
  | .list items => if laidOut || !items.isEmpty then heightOf laidOut items + 1 else 0
  | .record fields => if laidOut || !fields.isEmpty then heightIn laidOut fields + 1 else 0
  | .null | .boolean _ | .integer _ | .number _ | .text _ => 0

def heightOf (laidOut : Bool) : List Document → Nat
  | [] => 0
  | d :: ds => max (d.height laidOut) (heightOf laidOut ds)

def heightIn (laidOut : Bool) : List (Bytes × Document) → Nat
  | [] => 0
  | (_, d) :: fields => max (d.height laidOut) (heightIn laidOut fields)

end

def Finite (d : Document) : Prop := ∀ f ∈ d.numbers, IsFinite f

/-! ## When a document is refused -/

section Refusal

open Json

variable {laidOut : Bool}

/-- What stands in a list or record is looked at one level further in, if there is such a level. -/
theorem within_eq_none_iff {α : Type} {inside : List α} {depth height : Nat}
    {rest : Option Refusal} {P : Prop} (hdepth : depth ≤ maxDepth)
    (hempty : inside = [] → rest = none ∧ P)
    (hrest : depth + 1 ≤ maxDepth → (rest = none ↔ P ∧ depth + 1 + height ≤ maxDepth)) :
    (if maxDepth ≤ depth && (laidOut || !inside.isEmpty) then some .tooDeep else rest) = none ↔
      P ∧ depth + (if laidOut || !inside.isEmpty then height + 1 else 0) ≤ maxDepth := by
  cases hcounts : laidOut || !inside.isEmpty with
  | false =>
      rw [Bool.or_eq_false_iff, Bool.not_eq_false', List.isEmpty_iff] at hcounts
      simp [hempty hcounts.2, hdepth]
  | true =>
      rw [Bool.and_true, if_pos rfl]
      by_cases hlast : maxDepth ≤ depth
      · rw [if_pos (decide_eq_true hlast)]
        exact iff_of_false (by simp) fun h => by have := h.2; omega
      · rw [if_neg (by simpa using hlast), hrest (by omega)]
        exact and_congr_right fun _ => by omega

mutual

theorem refusal?_eq_none_iff {depth : Nat} (hdepth : depth ≤ maxDepth) : (d : Document) →
    (refusal? laidOut depth d = none ↔ d.Finite ∧ depth + d.height laidOut ≤ maxDepth)
  | .null | .boolean _ | .integer _ | .text _ => by
      simp [refusal?, Finite, numbers, height, hdepth]
  | .number f => by
      rw [refusal?, Finite, numbers, height, List.forall_mem_singleton, isFinite_iff]
      cases f.isNaN || f.isInf <;> simp [hdepth]
  | .list items =>
      within_eq_none_iff hdepth (fun hempty => hempty ▸ ⟨rfl, List.forall_mem_nil _⟩)
        fun hnext => itemsRefusal?_eq_none_iff hnext items
  | .record fields =>
      within_eq_none_iff hdepth (fun hempty => hempty ▸ ⟨rfl, List.forall_mem_nil _⟩)
        fun hnext => fieldsRefusal?_eq_none_iff hnext fields

theorem itemsRefusal?_eq_none_iff {depth : Nat} (hdepth : depth ≤ maxDepth) :
    (ds : List Document) → (itemsRefusal? laidOut depth ds = none ↔
      (∀ f ∈ numbersOf ds, IsFinite f) ∧ depth + heightOf laidOut ds ≤ maxDepth)
  | [] => by simp [itemsRefusal?, numbersOf, heightOf, hdepth]
  | d :: ds => by
      rw [itemsRefusal?, Option.or_eq_none_iff, refusal?_eq_none_iff hdepth d,
        itemsRefusal?_eq_none_iff hdepth ds, numbersOf, List.forall_mem_append, heightOf,
        ← Nat.add_max_add_left, Nat.max_le]
      exact and_and_and_comm

theorem fieldsRefusal?_eq_none_iff {depth : Nat} (hdepth : depth ≤ maxDepth) :
    (fields : List (Bytes × Document)) → (fieldsRefusal? laidOut depth fields = none ↔
      (∀ f ∈ numbersIn fields, IsFinite f) ∧ depth + heightIn laidOut fields ≤ maxDepth)
  | [] => by simp [fieldsRefusal?, numbersIn, heightIn, hdepth]
  | (_, d) :: fields => by
      rw [fieldsRefusal?, Option.or_eq_none_iff, refusal?_eq_none_iff hdepth d,
        fieldsRefusal?_eq_none_iff hdepth fields, numbersIn, List.forall_mem_append, heightIn,
        ← Nat.add_max_add_left, Nat.max_le]
      exact and_and_and_comm

end

mutual

theorem number_of_refusal? {depth : Nat} {f : Float} : (d : Document) →
    refusal? laidOut depth d = some (.notFinite f) → f ∈ d.numbers ∧ ¬ IsFinite f
  | .null, h | .boolean _, h | .integer _, h | .text _, h => by cases h
  | .number g, h => by
      rw [refusal?] at h
      split at h
      · next hg =>
          cases h
          exact ⟨List.mem_singleton_self f, by rw [isFinite_iff, hg]; simp⟩
      · cases h
  | .list items, h => by
      rw [refusal?] at h
      split at h
      · cases h
      · exact number_of_itemsRefusal? items h
  | .record fields, h => by
      rw [refusal?] at h
      split at h
      · cases h
      · exact number_of_fieldsRefusal? fields h

theorem number_of_itemsRefusal? {depth : Nat} {f : Float} : (ds : List Document) →
    itemsRefusal? laidOut depth ds = some (.notFinite f) → f ∈ numbersOf ds ∧ ¬ IsFinite f
  | [], h => by cases h
  | d :: ds, h => by
      rw [itemsRefusal?, Option.or_eq_some_iff] at h
      rw [numbersOf, List.mem_append]
      rcases h with h | ⟨-, h⟩
      · exact (number_of_refusal? d h).imp .inl id
      · exact (number_of_itemsRefusal? ds h).imp .inr id

theorem number_of_fieldsRefusal? {depth : Nat} {f : Float} :
    (fields : List (Bytes × Document)) →
    fieldsRefusal? laidOut depth fields = some (.notFinite f) →
      f ∈ numbersIn fields ∧ ¬ IsFinite f
  | [], h => by cases h
  | (_, d) :: fields, h => by
      rw [fieldsRefusal?, Option.or_eq_some_iff] at h
      rw [numbersIn, List.mem_append]
      rcases h with h | ⟨-, h⟩
      · exact (number_of_refusal? d h).imp .inl id
      · exact (number_of_fieldsRefusal? fields h).imp .inr id

end

/-- A document of finite numbers can only be too deep. -/
theorem refusal?_of_finite {d : Document} (h : d.Finite) :
    refusal? laidOut 0 d = if d.height laidOut ≤ maxDepth then none else some .tooDeep := by
  have hnone : refusal? laidOut 0 d = none ↔ d.Finite ∧ 0 + d.height laidOut ≤ maxDepth :=
    refusal?_eq_none_iff (Nat.zero_le maxDepth) d
  rw [Nat.zero_add] at hnone
  split
  · next hheight => exact hnone.mpr ⟨h, hheight⟩
  · next hheight =>
      cases hrefusal : refusal? laidOut 0 d with
      | none => exact absurd (hnone.mp hrefusal).2 hheight
      | some refusal =>
          cases refusal with
          | notFinite f =>
              obtain ⟨hf, hnot⟩ := number_of_refusal? d hrefusal
              exact absurd (h f hf) hnot
          | tooDeep => rfl

end Refusal

mutual

/-- Where empty lists and records count, there are not fewer levels. -/
theorem height_le_laidOut : (d : Document) → d.height false ≤ d.height true
  | .null | .boolean _ | .integer _ | .number _ | .text _ => Nat.le_refl 0
  | .list items => by
      have h := heightOf_le_laidOut items
      simp only [height, Bool.true_or, if_true]
      split <;> omega
  | .record fields => by
      have h := heightIn_le_laidOut fields
      simp only [height, Bool.true_or, if_true]
      split <;> omega

theorem heightOf_le_laidOut : (ds : List Document) → heightOf false ds ≤ heightOf true ds
  | [] => Nat.le_refl 0
  | d :: ds => by
      have h := height_le_laidOut d
      have hs := heightOf_le_laidOut ds
      simp only [heightOf]
      omega

theorem heightIn_le_laidOut : (fields : List (Bytes × Document)) →
    heightIn false fields ≤ heightIn true fields
  | [] => Nat.le_refl 0
  | (_, d) :: fields => by
      have h := height_le_laidOut d
      have hs := heightIn_le_laidOut fields
      simp only [heightIn]
      omega

end

theorem json?_of_finite {d : Document} (h : d.Finite) (indent : Int) :
    d.json? indent =
      if d.height (0 < indent) ≤ Json.maxDepth then .ok (d.json indent) else .error .tooDeep := by
  have hle := height_le_laidOut d
  rw [json?]
  simp only [refusal?_of_finite h]
  by_cases hindent : 0 < indent
  · by_cases hlaid : d.height true ≤ Json.maxDepth
    · simp [hindent, hlaid, Nat.le_trans hle hlaid]
    · by_cases hcompact : d.height false ≤ Json.maxDepth <;> simp [hindent, hlaid, hcompact]
  · by_cases hcompact : d.height false ≤ Json.maxDepth <;> simp [hindent, hcompact]

end Document

/-! ## The documents of scripts -/

namespace Document

theorem finite_list_iff {items : List Document} :
    (Document.list items).Finite ↔ ∀ d ∈ items, d.Finite := by
  rw [Finite, numbers]
  induction items with
  | nil => simp [numbersOf]
  | cons d ds ih =>
      rw [numbersOf, List.forall_mem_append, ih, List.forall_mem_cons]
      rfl

theorem finite_record_iff {fields : List (Bytes × Document)} :
    (Document.record fields).Finite ↔ ∀ field ∈ fields, field.2.Finite := by
  rw [Finite, numbers]
  induction fields with
  | nil => simp [numbersIn]
  | cons field fields ih =>
      rw [numbersIn, List.forall_mem_append, ih, List.forall_mem_cons]
      rfl

@[simp] theorem finite_text (s : Bytes) : (text s).Finite := List.forall_mem_nil _

@[simp] theorem finite_ofString (s : String) : (ofString s).Finite := List.forall_mem_nil _

@[simp] theorem finite_integer (n : Int) : (integer n).Finite := List.forall_mem_nil _

theorem finite_null : null.Finite := List.forall_mem_nil _

end Document

open Document (finite_list_iff finite_record_iff finite_null field)

mutual

theorem Value.finite_toDocument : (v : Value) → v.toDocument.Finite
  | .null | .boolean _ | .string _ => List.forall_mem_nil _
  | .number f => by
      rw [Value.toDocument]
      split
      · exact List.forall_mem_nil _
      · next hfinite =>
          exact List.forall_mem_singleton.mpr (isFinite_iff.mpr (by simpa using hfinite))
  | .array vs => finite_list_iff.mpr (Value.finite_toDocuments vs)

theorem Value.finite_toDocuments : (vs : List Value) → ∀ d ∈ Value.toDocuments vs, d.Finite
  | [] => List.forall_mem_nil _
  | v :: vs => List.forall_mem_cons.mpr ⟨v.finite_toDocument, Value.finite_toDocuments vs⟩

end

theorem Token.finite_toDocument (t : Token) : t.toDocument.Finite := by
  rw [Token.toDocument, finite_record_iff]
  split <;> simp [field, t.literal.finite_toDocument]

mutual

theorem Expr.finite_toDocument : (e : Expr) → e.toDocument.Finite
  | .absent => finite_null
  | .literal value line => by
      simp [Expr.toDocument, finite_record_iff, field, value.finite_toDocument]
  | .reference name => by simp [Expr.toDocument, finite_record_iff, field]
  | .assign name e => by
      simp [Expr.toDocument, finite_record_iff, field, e.finite_toDocument]
  | .unary op e => by
      simp [Expr.toDocument, finite_record_iff, field, e.finite_toDocument]
  | .binary left op right => by
      simp [Expr.toDocument, finite_record_iff, field, left.finite_toDocument,
        right.finite_toDocument]
  | .array bracket elems => by
      have helems := finite_list_iff.mpr (Expr.finite_toDocuments elems)
      simp [Expr.toDocument, finite_record_iff, field, helems]

theorem Expr.finite_toDocuments : (es : List Expr) → ∀ d ∈ Expr.toDocuments es, d.Finite
  | [] => List.forall_mem_nil _
  | e :: es => List.forall_mem_cons.mpr ⟨e.finite_toDocument, Expr.finite_toDocuments es⟩

end

mutual

theorem Stmt.finite_toDocument : (s : Stmt) → s.toDocument.Finite
  | .absent => finite_null
  | .print keyword e => by
      simp [Stmt.toDocument, finite_record_iff, field, e.finite_toDocument]
  | .expression e => by
      simp [Stmt.toDocument, finite_record_iff, field, e.finite_toDocument]
  | .declare name init => by
      rw [Stmt.toDocument, finite_record_iff]
      split <;> simp [field, init.finite_toDocument]
  | .block brace stmts => by
      have hstmts := finite_list_iff.mpr (Stmt.finite_toDocuments stmts)
      simp [Stmt.toDocument, finite_record_iff, field, hstmts]
  | .branch keyword cond yes no => by
      have hno := no.finite_toDocument
      rw [Stmt.toDocument, finite_record_iff]
      split <;> simp [field, cond.finite_toDocument, yes.finite_toDocument, hno]

theorem Stmt.finite_toDocuments : (ss : List Stmt) → ∀ d ∈ Stmt.toDocuments ss, d.Finite
  | [] => List.forall_mem_nil _
  | s :: ss => List.forall_mem_cons.mpr ⟨s.finite_toDocument, Stmt.finite_toDocuments ss⟩

end

/-- What is written of a script: its tokens, its tree, a value or bindings. -/
inductive Document.OfScript : Document → Prop
  | tokens (ts : List Token) : OfScript (.list (ts.map Token.toDocument))
  | token (t : Token) : OfScript t.toDocument
  | stmts (ss : List Stmt) : OfScript (.list (Stmt.toDocuments ss))
  | stmt (s : Stmt) : OfScript s.toDocument
  | expr (e : Expr) : OfScript e.toDocument
  | value (v : Value) : OfScript v.toDocument
  | bindings (b : Bindings) : OfScript b.toDocument

theorem Document.OfScript.finite {d : Document} (h : d.OfScript) : d.Finite := by
  cases h with
  | tokens ts =>
      rw [finite_list_iff, List.forall_mem_map]
      exact fun t _ => t.finite_toDocument
  | token t => exact t.finite_toDocument
  | stmts ss => exact finite_list_iff.mpr (Stmt.finite_toDocuments ss)
  | stmt s => exact s.finite_toDocument
  | expr e => exact e.finite_toDocument
  | value v => exact v.finite_toDocument
  | bindings b =>
      rw [Bindings.toDocument, finite_record_iff, List.forall_mem_map]
      exact fun entry _ => entry.2.finite_toDocument

end Scribe
