import Scribe.Proofs.Machine.Step
import Scribe.Proofs.Parse.Complete

/-!
# Values as they are written

The tokens that write a value and the tree that they form. Parsing the tokens gives the tree and
evaluating the tree gives the value. Both need levels for the arrays that enclose each other, for
the innermost constant, and for the sign that may stand before it.
-/

namespace Scribe

mutual

def Value.nesting : Value → Nat
  | .array vs => Value.nestings vs + 1
  | _ => 0

def Value.nestings : List Value → Nat
  | [] => 0
  | v :: vs => max v.nesting (Value.nestings vs)

end

namespace Literal

open Grammar Parse

mutual

/-- `Written v ts e`: the tokens `ts` write the value `v` and form the tree `e`. -/
inductive Written : Value → List Token → Expr → Prop
  | constant {t : Token} {v : Value} (h : Denotes t v) : Written v [t] (.literal v t.line)
  | negative {sign t : Token} {f : Float} (hsign : sign.kind = .minus)
      (h : Denotes t (.number f)) :
      Written (.number (-f)) [sign, t] (.unary sign (.literal (.number f) t.line))
  | emptyArray {l r : Token} (hl : l.kind = .leftBracket) (hr : r.kind = .rightBracket) :
      Written (.array []) [l, r] (.array l [])
  | array {l r : Token} {vs : List Value} {ts : List Token} {es : List Expr}
      (hl : l.kind = .leftBracket) (hes : WrittenElements vs ts es)
      (hr : r.kind = .rightBracket) : Written (.array vs) (l :: ts ++ [r]) (.array l es)

inductive WrittenElements : List Value → List Token → List Expr → Prop
  | last {v : Value} {ts : List Token} {e : Expr} (h : Written v ts e) :
      WrittenElements [v] ts [e]
  | more {comma : Token} {v : Value} {vs : List Value} {ts us : List Token} {e : Expr}
      {es : List Expr} (h : Written v ts e) (hcomma : comma.kind = .comma)
      (hes : WrittenElements vs us es) : WrittenElements (v :: vs) (ts ++ comma :: us) (e :: es)

end

/-! ## Parsing -/

theorem Written.starts {v : Value} {ts : List Token} {e : Expr} (h : Written v ts e) :
    ∃ t us, ts = t :: us ∧ opening t ≠ .other := by
  cases h with
  | constant h => exact ⟨_, _, rfl, by simp [opening_eq_constant.mpr h]⟩
  | negative hsign _ => exact ⟨_, _, rfl, by simp [opening_eq_sign.mpr (.inr hsign)]⟩
  | emptyArray hl _ => exact ⟨_, _, rfl, by simp [opening_eq_array.mpr hl]⟩
  | array hl _ _ => exact ⟨_, _, rfl, by simp [opening_eq_array.mpr hl]⟩

theorem WrittenElements.starts {vs : List Value} {ts : List Token} {es : List Expr}
    (h : WrittenElements vs ts es) : ∃ t us, ts = t :: us ∧ opening t ≠ .other := by
  cases h with
  | last h => exact h.starts
  | more h _ _ =>
      obtain ⟨t, us, rfl, ht⟩ := h.starts
      exact ⟨t, _, rfl, ht⟩

theorem isEnd_of_kind {t : Token} {kind : TokenKind} (h : t.kind = kind) (hne : kind ≠ .eof) :
    t.isEnd = false := by
  rw [Token.isEnd, h, beq_eq_false_iff_ne]
  exact hne

theorem isEnd_of_denotes {t : Token} {v : Value} (h : Denotes t v) : t.isEnd = false := by
  cases h with
  | no h => exact isEnd_of_kind h (by decide)
  | yes h => exact isEnd_of_kind h (by decide)
  | null h => exact isEnd_of_kind h (by decide)
  | number h => exact isEnd_of_kind h (by decide)
  | string h => exact isEnd_of_kind h (by decide)

mutual

theorem Written.open_ended : {v : Value} → {ts : List Token} → {e : Expr} → Written v ts e →
    ∀ t ∈ ts, t.isEnd = false
  | _, _, _, .constant h, t, ht => by
      rw [List.mem_singleton] at ht
      exact ht ▸ isEnd_of_denotes h
  | _, _, _, .negative hsign h, t, ht => by
      rw [List.mem_cons, List.mem_singleton] at ht
      rcases ht with rfl | rfl
      · exact isEnd_of_kind hsign (by decide)
      · exact isEnd_of_denotes h
  | _, _, _, .emptyArray hl hr, t, ht => by
      rw [List.mem_cons, List.mem_singleton] at ht
      rcases ht with rfl | rfl
      · exact isEnd_of_kind hl (by decide)
      · exact isEnd_of_kind hr (by decide)
  | _, _, _, .array hl hes hr, t, ht => by
      rw [List.mem_append, List.mem_cons, List.mem_singleton] at ht
      rcases ht with (rfl | ht) | rfl
      · exact isEnd_of_kind hl (by decide)
      · exact hes.open_ended t ht
      · exact isEnd_of_kind hr (by decide)

theorem WrittenElements.open_ended : {vs : List Value} → {ts : List Token} → {es : List Expr} →
    WrittenElements vs ts es → ∀ t ∈ ts, t.isEnd = false
  | _, _, _, .last h, t, ht => h.open_ended t ht
  | _, _, _, .more h hcomma hes, t, ht => by
      rw [List.mem_append, List.mem_cons] at ht
      rcases ht with ht | rfl | ht
      · exact h.open_ended t ht
      · exact isEnd_of_kind hcomma (by decide)
      · exact hes.open_ended t ht

end

mutual

theorem Written.parsed : {v : Value} → {ts : List Token} → {e : Expr} → Written v ts e →
    (n : Nat) → (c : Cursor) → c.finish.isEnd → c.Ends → v.nesting + 2 ≤ n →
    expression n (c.before ts) = .ok e c
  | _, _, _, .constant h, n + 1, c, _, hends, _ => expression_of_operand hends (operand_constant h)
  | _, _, _, .negative hsign h, n + 2, c, _, hends, _ =>
      expression_of_operand hends (operand_sign (.inr hsign) (operand_constant h))
  | _, _, _, .emptyArray hl hr, n + 1, c, _, hends, _ =>
      expression_of_operand hends (operand_emptyArray hl hr)
  | _, _, _, .array hl hes hr, n + 1, c, hend, hends, hn => by
      simp only [Value.nesting] at hn
      refine expression_of_operand hends (operand_array hl hes.starts hr ?_)
      refine hes.parsed n _ (c.before _) hend (c.ends_before [] (by simp [hr])) ?_ (by omega)
      exact Cursor.next_before_cons.mpr (by simp [hr])

theorem WrittenElements.parsed : {vs : List Value} → {ts : List Token} → {es : List Expr} →
    WrittenElements vs ts es → (n : Nat) → (bracket : Token) → (c : Cursor) → c.finish.isEnd →
    c.Ends → (c.Next fun kind => kind ≠ .comma) → Value.nestings vs + 2 ≤ n →
    elements n bracket (c.before ts) = .ok es c
  | _, _, _, .last h, n, bracket, c, hend, hends, hcomma, hn => by
      simp only [Value.nestings] at hn
      exact elements_last bracket hend hcomma (h.parsed n c hend hends (by omega))
  | _, _, _, .more h hcomma hes, n, bracket, c, hend, hends, hno, hn => by
      simp only [Value.nestings] at hn
      refine elements_more bracket hend hcomma ?_
        (hes.parsed n bracket c hend hends hno (by omega))
      exact h.parsed n _ hend (c.ends_before _ (by simp [hcomma])) (by omega)

end

/-! ## Evaluating -/

theorem evaluate_literal {o : Options} (v : Value) (line : Int) {m : Machine}
    (hm : m.depth < o.limit) : evaluate o (.literal v line) m = .ok v m := by
  rw [evaluate]
  exact nested_of_ok hm rfl

mutual

theorem Written.evaluated {o : Options} (hon : o.arrayElements = true) : {v : Value} →
    {ts : List Token} → {e : Expr} → Written v ts e → (m : Machine) →
    m.depth + (v.nesting + 2) ≤ o.limit → evaluate o e m = .ok v m
  | v, _, _, .constant _, m, hm => evaluate_literal v _ (by omega)
  | _, _, _, @Written.negative sign t f hsign _, m, hm => by
      have hinner : m.deeper.depth < o.limit := by
        change m.depth + 1 < o.limit
        omega
      have hnegated : Value.unary sign (.number f) = .ok (.number (-f)) := by
        simp only [Value.unary, hsign]
      rw [evaluate]
      refine nested_of_ok (by omega) ?_
      rw [then_of_ok (evaluate_literal (.number f) t.line hinner), hnegated]
      rfl
  | _, _, _, .emptyArray _ _, m, hm => by
      rw [evaluate]
      refine nested_of_ok (by omega) ?_
      rw [if_pos hon]
      rfl
  | _, _, _, .array _ hes _, m, hm => by
      simp only [Value.nesting] at hm
      have hinner := hes.evaluated hon m.deeper (by simp only [Machine.deeper]; omega)
      rw [evaluate]
      refine nested_of_ok (by omega) ?_
      rw [if_pos hon, then_of_ok hinner]
      rfl

theorem WrittenElements.evaluated {o : Options} (hon : o.arrayElements = true) :
    {vs : List Value} → {ts : List Token} → {es : List Expr} → WrittenElements vs ts es →
    (m : Machine) → m.depth + (Value.nestings vs + 2) ≤ o.limit → evaluateAll o es m = .ok vs m
  | _, _, _, .last h, m, hm => by
      simp only [Value.nestings] at hm
      rw [evaluateAll, then_of_ok (h.evaluated hon m (by omega))]
      rfl
  | _, _, _, .more h _ hes, m, hm => by
      simp only [Value.nestings] at hm
      rw [evaluateAll, then_of_ok (h.evaluated hon m (by omega)),
        then_of_ok (hes.evaluated hon m (by omega))]
      rfl

end

theorem Written.ne_absent {v : Value} {ts : List Token} {e : Expr} (h : Written v ts e) :
    e ≠ .absent := by
  cases h <;> simp

/-! ## Declarations -/

/-- The tokens of `let name = literal;` and the statement that they form, where the literal writes
a value. -/
inductive Declares (name : Bytes) (v : Value) : List Token → Stmt → Prop
  | mk {keyword target equals semicolon : Token} {ts : List Token} {e : Expr}
      (hkeyword : keyword.kind = .kwLet) (htarget : target.kind = .identifier)
      (hname : target.lexeme = name) (hequals : equals.kind = .equal) (h : Written v ts e)
      (hsemicolon : semicolon.kind = .semicolon) :
      Declares name v (keyword :: target :: equals :: ts ++ [semicolon]) (.declare target e)

section Declares

variable {name : Bytes} {v : Value} {ts : List Token} {s : Stmt} (h : Declares name v ts s)
include h

theorem Declares.open_ended : ∀ t ∈ ts, t.isEnd = false := by
  obtain ⟨hkeyword, htarget, -, hequals, hwritten, hsemicolon⟩ := h
  intro t ht
  rw [List.mem_append, List.mem_cons, List.mem_cons, List.mem_cons, List.mem_singleton] at ht
  rcases ht with (rfl | rfl | rfl | ht) | rfl
  · exact isEnd_of_kind hkeyword (by decide)
  · exact isEnd_of_kind htarget (by decide)
  · exact isEnd_of_kind hequals (by decide)
  · exact hwritten.open_ended t ht
  · exact isEnd_of_kind hsemicolon (by decide)

theorem Declares.parsed {n : Nat} {c : Cursor} (hend : c.finish.isEnd) (hn : v.nesting + 2 ≤ n) :
    declaration n (c.before ts) = .ok s c := by
  obtain ⟨hkeyword, htarget, -, hequals, hwritten, hsemicolon⟩ := h
  refine declaration_initialized (.inl hkeyword) htarget hequals hsemicolon ?_
  exact hwritten.parsed n _ hend (c.ends_before [] (by simp [hsemicolon])) hn

/-- The variable is bound in the current scope, and nothing else happens but an event. -/
theorem Declares.executed {o : Options} (hlive : o.cancelled = false)
    (hon : o.arrayElements = true) {m : Machine} (hm : m.depth + (v.nesting + 3) ≤ o.limit) :
    ∃ event, execute o s m =
      .ok () { m with scopes := m.scopes.define name v, events := event :: m.events } := by
  cases h with
  | @mk _ target _ _ _ e _ _ hname _ hwritten _ =>
      have hroom : m.depth < o.limit := by omega
      generalize hevent : (Stmt.declare target e).event target.line = event
      have hnote : Action.note event m.deeper = .ok () (m.entered event) := rfl
      have hvalue := hwritten.evaluated hon (m.entered event)
        (by simp only [Machine.entered, Machine.deeper]; omega)
      have hrun : (do
          Action.note event
          let w ← evaluate o e
          Action.define target.lexeme w) m.deeper =
            .ok () { m.entered event with scopes := m.scopes.define name v } := by
        rw [hname]
        exact (then_of_ok hnote).trans (then_of_ok hvalue)
      refine ⟨event, ?_⟩
      rw [execute_declare hlive target hwritten.ne_absent, hevent, nested_eq _ _ hroom, hrun]
      rfl

end Declares

/-! ## Lists of declarations -/

/-- The tokens and statements of declarations, one for each entry and in their order. -/
inductive DeclaresAll : List (Bytes × Value) → List Token → List Stmt → Prop
  | nil : DeclaresAll [] [] []
  | cons {name : Bytes} {v : Value} {entries : List (Bytes × Value)} {ts us : List Token} {s : Stmt}
      {ss : List Stmt} (hs : Declares name v ts s) (hss : DeclaresAll entries us ss) :
      DeclaresAll ((name, v) :: entries) (ts ++ us) (s :: ss)

theorem Declares.single {name : Bytes} {v : Value} {ts : List Token} {s : Stmt}
    (h : Declares name v ts s) : DeclaresAll [(name, v)] ts [s] := by
  have hone := DeclaresAll.cons h .nil
  rwa [List.append_nil] at hone

section DeclaresAll

variable {entries : List (Bytes × Value)} {ts : List Token} {ss : List Stmt}
  (h : DeclaresAll entries ts ss)
include h

theorem DeclaresAll.open_ended : ∀ t ∈ ts, t.isEnd = false := by
  induction h with
  | nil => simp
  | cons hs _ ih =>
      intro t ht
      rcases List.mem_append.mp ht with ht | ht
      · exact hs.open_ended t ht
      · exact ih t ht

theorem DeclaresAll.parsed {limit : Nat} (hlimit : ∀ e ∈ entries, e.2.nesting + 2 ≤ limit)
    {c : Cursor} (hend : c.finish.isEnd) (hc : c.rest = []) :
    program limit (c.before ts) = (ss, c) := by
  induction h with
  | nil => exact program_of_nil limit hc
  | @cons name v entries ts us s ss hs _ ih =>
      have hroom : v.nesting + 2 ≤ limit := hlimit (name, v) List.mem_cons_self
      have hfirst := hs.parsed (n := limit) (c := c.before us) hend hroom
      rw [← Cursor.before_append] at hfirst
      have hne : (c.before (ts ++ us)).rest ≠ [] := by
        obtain ⟨-, -, -, -, -, -⟩ := hs
        simp [Cursor.before]
      rw [program_of_ok limit (c := c.before (ts ++ us)) hend hne hfirst,
        ih fun e he => hlimit e (List.mem_cons_of_mem _ he)]

end DeclaresAll

end Literal

end Scribe
