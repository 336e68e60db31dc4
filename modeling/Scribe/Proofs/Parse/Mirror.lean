import Scribe.Proofs.Parse.Walk
import Scribe.Proofs.Parse.Complete

/-!
# Walks and productions

A part of the parser that walks over the tokens by place does what the production of the same name
does with the tokens left. The two are compared at a walker and a cursor that stand at the same
token; at the end they do so again, and the walker is as deep as it was.
-/

namespace Scribe

namespace Walker

def next (w : Walker) : Walker := { w with place := w.place + 1 }

def deeper (w : Walker) : Walker := { w with depth := w.depth + 1 }

def room (way : Way) (w : Walker) : Nat := ((way.limit : Int) - w.depth).toNat

/-- How often statements that nest too deeply are reported. -/
def excess (w : Walker) : Nat :=
  w.reports.countP fun d => d.cause == .syntactic .statementTooDeep

def report (w : Walker) (d : Diagnostic) : Walker := { w with reports := d :: w.reports }

theorem excess_report_of_eq (w : Walker) {d : Diagnostic}
    (h : d.cause = .syntactic .statementTooDeep) : (w.report d).excess = w.excess + 1 :=
  List.countP_cons_of_pos (by simpa using h)

theorem excess_report_of_ne (w : Walker) {d : Diagnostic}
    (h : d.cause ≠ .syntactic .statementTooDeep) : (w.report d).excess = w.excess :=
  List.countP_cons_of_neg (by simpa using h)

theorem room_deeper {way : Way} {n : Nat} {w : Walker} (h : w.room way = n + 1) :
    w.deeper.room way = n := by
  unfold room deeper at *
  simp only
  omega

end Walker

namespace Walk

open Parse (Cursor Run Production Tier)
open Grammar (operatorsOf)

/-! ## Sequences -/

section Sequences

variable {w w' : Walker}

theorem then_of_ok {p : Walk α} {f : α → Walk β} {a : α} (h : p w = some (.ok a, w')) :
    (p >>= f) w = f a w' := by
  simp only [bind, ExceptT.bind, ExceptT.mk, StateT.bind, h, Option.bind, ExceptT.bindCont]

theorem then_of_error {p : Walk α} {f : α → Walk β} {e : Trouble}
    (h : p w = some (.error e, w')) : (p >>= f) w = some (.error e, w') := by
  simp only [bind, ExceptT.bind, ExceptT.mk, StateT.bind, h, Option.bind, ExceptT.bindCont]
  rfl

theorem if_of_true {p : Walk Bool} {yes no : Walk α} (h : p w = some (.ok true, w')) :
    (p >>= fun b => if b = true then yes else no) w = yes w' := by
  rw [then_of_ok h, if_pos rfl]

theorem if_of_false {p : Walk Bool} {yes no : Walk α} (h : p w = some (.ok false, w')) :
    (p >>= fun b => if b = true then yes else no) w = no w' := by
  rw [then_of_ok h, if_neg Bool.false_ne_true]

/-- A part behind which a level is left, however it ends. -/
def unnested (p : Walk α) : Walk α :=
  (do
    let r ← p.run
    unnest
    pure r : Steps (Except Trouble α))

/-- A part behind which the walker goes back to a depth, however the part ends. -/
def restored (depth : Int) (p : Walk α) : Walk α :=
  (do
    let r ← p.run
    restore depth
    pure r : Steps (Except Trouble α))

theorem step_of_some {p : Steps α} {f : α → Steps β} {a : α} (h : p w = some (a, w')) :
    (p >>= f) w = f a w' := by
  simp only [bind, StateT.bind, h, Option.bind]

theorem unnested_of_some {p : Walk α} {r : Except Trouble α} (h : p w = some (r, w')) :
    unnested p w = some (r, { w' with depth := w'.depth - 1 }) :=
  step_of_some h

theorem restored_congr {p q : Walk α} (depth : Int) (h : p w = q w') :
    restored depth p w = restored depth q w' := by
  simp only [restored, ExceptT.run, bind, StateT.bind, h]

theorem restored_of_some {p : Walk α} {depth : Int} {r : Except Trouble α}
    (h : p w = some (r, w')) : restored depth p w = some (r, { w' with depth }) :=
  step_of_some h

end Sequences

/-! ## Where a walker and a cursor stand -/

/-- A walker and a cursor are in front of the same tokens, of which the one at `stop` is the first
end mark. -/
structure Stands (way : Way) (stop : Nat) (w : Walker) (c : Cursor) : Prop where
  place : w.place + c.rest.length = stop
  ahead : ∃ behind, way.text.drop w.place = c.rest ++ c.finish :: behind
  rest : ∀ t ∈ c.rest, t.isEnd = false
  finish : c.finish.isEnd
  reports : w.reports = c.reports

/-- Where a part that begins at `w` may end: ahead, and otherwise as before. -/
structure Kept (way : Way) (stop : Nat) (w w' : Walker) (c' : Cursor) : Prop where
  stands : Stands way stop w' c'
  depth : w'.depth = w.depth
  unwinding : w'.unwinding = w.unwinding
  excess : w'.excess = w.excess

/-- A walk from `w` ends as a run of a production does. -/
inductive Mirrors (way : Way) (stop : Nat) (w : Walker) :
    Option (Except Trouble α × Walker) → Run α → Prop
  | ok {a : α} {w' : Walker} {c' : Cursor} (h : Kept way stop w w' c') :
      Mirrors way stop w (some (.ok a, w')) (.ok a c')
  | failed {d : Diagnostic} {w' : Walker} {c' : Cursor} (h : Kept way stop w w' c')
      (hcause : d.cause ≠ .syntactic .statementTooDeep) :
      Mirrors way stop w (some (.error (.found d), w')) (.error (.failed d) c')
  | tooDeep {d : Diagnostic} {w' : Walker} {c' : Cursor} (hstands : Stands way stop w' c')
      (hdepth : w'.depth = w.depth) (hflag : w'.unwinding = true)
      (hexcess : w'.excess = w.excess) (hcause : d.cause = .syntactic .statementTooDeep) :
      Mirrors way stop w (some (.error (.found d), w')) (.error (.tooDeep d) c')
  | unwinding {w' : Walker} {c' : Cursor} (hstands : Stands way stop w' c')
      (hdepth : w'.depth = w.depth) (hflag : w'.unwinding = true)
      (hexcess : w'.excess = w.excess + 1) :
      Mirrors way stop w (some (.error .unwound, w')) (.error .unwinding c')

variable {way : Way} {stop : Nat} {w w' : Walker} {c c' : Cursor}

namespace Kept

theorem refl (h : Stands way stop w c) : Kept way stop w w c := ⟨h, rfl, rfl, rfl⟩

theorem room (h : Kept way stop w w' c') : w'.room way = w.room way := by
  rw [Walker.room, h.depth, Walker.room]

theorem trans {w'' : Walker} {c'' : Cursor} (h : Kept way stop w w' c')
    (h' : Kept way stop w' w'' c'') : Kept way stop w w'' c'' :=
  ⟨h'.stands, h'.depth.trans h.depth, h'.unwinding.trans h.unwinding, h'.excess.trans h.excess⟩

end Kept

namespace Mirrors

/-- What mirrors from a walker ahead does so from a walker further back. -/
theorem of_kept {r : Option (Except Trouble α × Walker)} {s : Run α}
    (hkept : Kept way stop w w' c') (h : Mirrors way stop w' r s) : Mirrors way stop w r s := by
  cases h with
  | ok h => exact .ok (hkept.trans h)
  | failed h hcause => exact .failed (hkept.trans h) hcause
  | tooDeep hstands hdepth hflag hexcess hcause =>
      exact .tooDeep hstands (hdepth.trans hkept.depth) hflag (hexcess.trans hkept.excess) hcause
  | unwinding hstands hdepth hflag hexcess =>
      exact .unwinding hstands (hdepth.trans hkept.depth) hflag (hkept.excess ▸ hexcess)

theorem pure (h : Stands way stop w c) (a : α) :
    Mirrors way stop w ((pure a : Walk α) w) ((pure a : Production α) c) :=
  .ok (.refl h)

theorem bind {p : Walk α} {q : Production α} {f : α → Walk β} {g : α → Production β}
    (hp : Mirrors way stop w (p w) (q c))
    (hf : ∀ a w' c', q c = .ok a c' → Kept way stop w w' c' →
      Mirrors way stop w' (f a w') (g a c')) :
    Mirrors way stop w ((p >>= f) w) ((q >>= g) c) := by
  generalize hr : p w = r at hp
  generalize hs : q c = s at hp
  cases hp with
  | ok h =>
      rw [then_of_ok hr, Parse.bind_of_ok hs]
      exact (hf _ _ _ hs h).of_kept h
  | failed h hcause =>
      rw [then_of_error hr, Parse.bind_of_error hs]
      exact .failed h hcause
  | tooDeep hstands hdepth hflag hexcess hcause =>
      rw [then_of_error hr, Parse.bind_of_error hs]
      exact .tooDeep hstands hdepth hflag hexcess hcause
  | unwinding hstands hdepth hflag hexcess =>
      rw [then_of_error hr, Parse.bind_of_error hs]
      exact .unwinding hstands hdepth hflag hexcess

end Mirrors

/-! ## Single tokens -/

namespace Stands

/-- What a walker and a cursor stand at has nothing to do with depth. -/
theorem withDepth (h : Stands way stop w c) (depth : Int) :
    Stands way stop { w with depth } c :=
  ⟨h.place, h.ahead, h.rest, h.finish, h.reports⟩

theorem here (h : Stands way stop w c) : way.here w = some (.ok c.peek, w) := by
  obtain ⟨behind, hahead⟩ := h.ahead
  have hfound : way.text[w.place]? = some c.peek := by
    rw [← Nat.add_zero w.place, ← List.getElem?_drop, hahead]
    cases hrest : c.rest with
    | nil => rw [Cursor.peek, hrest]; rfl
    | cons t rest => rw [Cursor.peek, hrest]; rfl
  show (way.text[w.place]?).map _ = _
  rw [hfound]
  rfl

theorem atEnd (h : Stands way stop w c) : way.atEnd w = some (.ok c.rest.isEmpty, w) := by
  have hpeek : c.peek.isEnd = c.rest.isEmpty := by
    cases hrest : c.rest with
    | nil =>
        rw [Cursor.peek_of_nil hrest]
        exact h.finish
    | cons t rest =>
        rw [Cursor.peek_of_cons hrest]
        exact h.rest t (hrest ▸ List.mem_cons_self)
  rw [Way.atEnd, then_of_ok h.here, hpeek]
  rfl

theorem next (h : Stands way stop w c) {t : Token} {rest : List Token}
    (hrest : c.rest = t :: rest) : Stands way stop w.next { c with rest } := by
  obtain ⟨behind, hahead⟩ := h.ahead
  refine ⟨?_, ⟨behind, ?_⟩, fun u hu => ?_, h.finish, h.reports⟩
  · have hplace := h.place
    rw [hrest, List.length_cons] at hplace
    simp only [Walker.next]
    omega
  · rw [Walker.next, ← List.drop_drop, hahead, hrest]
    rfl
  · exact h.rest u (hrest ▸ List.mem_cons_of_mem t hu)

theorem previous_next (h : Stands way stop w c) {t : Token} {rest : List Token}
    (hrest : c.rest = t :: rest) : way.previous w.next = some (.ok t, w.next) := by
  obtain ⟨behind, hahead⟩ := h.ahead
  have hfound : way.text[w.place]? = some t := by
    rw [← Nat.add_zero w.place, ← List.getElem?_drop, hahead, hrest]
    rfl
  show (way.text[w.place]?).map _ = _
  rw [hfound]
  rfl

theorem advance_of_cons (h : Stands way stop w c) {t : Token} {rest : List Token}
    (hrest : c.rest = t :: rest) : way.advance w = some (.ok t, w.next) := by
  have hend := h.atEnd
  rw [hrest] at hend
  rw [Way.advance, if_of_false hend]
  exact (then_of_ok rfl).trans (h.previous_next hrest)

/-- A token stands in front of every place, or the zero of tokens. -/
theorem previous (h : Stands way stop w c) : ∃ t, way.previous w = some (.ok t, w) := by
  obtain ⟨behind, hahead⟩ := h.ahead
  have hlt : w.place < way.text.length := by
    by_contra hge
    rw [List.drop_of_length_le (Nat.le_of_not_lt hge)] at hahead
    simp at hahead
  cases hplace : w.place with
  | zero => exact ⟨_, by simp only [Way.previous, ExceptT.mk, hplace]; rfl⟩
  | succ n =>
      refine ⟨way.text[n], ?_⟩
      simp only [Way.previous, ExceptT.mk, hplace]
      rw [List.getElem?_eq_getElem (by omega)]
      rfl

theorem advance_of_nil (h : Stands way stop w c) (hrest : c.rest = []) :
    ∃ t, way.advance w = some (.ok t, w) := by
  have hend := h.atEnd
  rw [hrest] at hend
  obtain ⟨t, ht⟩ := h.previous
  exact ⟨t, (if_of_true hend).trans ht⟩

theorem kept_next (h : Stands way stop w c) {t : Token} {rest : List Token}
    (hrest : c.rest = t :: rest) : Kept way stop w w.next { c with rest } :=
  ⟨h.next hrest, rfl, rfl, rfl⟩

theorem check_of_nil (h : Stands way stop w c) (hrest : c.rest = []) (kind : TokenKind) :
    way.check kind w = some (.ok false, w) := by
  have hend := h.atEnd
  rw [hrest] at hend
  rw [Way.check, if_of_true hend]
  rfl

theorem check_of_cons (h : Stands way stop w c) {t : Token} {rest : List Token}
    (hrest : c.rest = t :: rest) (kind : TokenKind) :
    way.check kind w = some (.ok (t.kind == kind), w) := by
  have hend := h.atEnd
  have hhere := h.here
  rw [hrest] at hend
  rw [Cursor.peek_of_cons hrest] at hhere
  rw [Way.check, if_of_false hend, then_of_ok hhere]
  rfl

theorem accept_of_nil (h : Stands way stop w c) (hrest : c.rest = []) (kinds : List TokenKind) :
    way.accept kinds w = some (.ok false, w) := by
  induction kinds with
  | nil => rfl
  | cons kind kinds ih => rw [Way.accept, if_of_false (h.check_of_nil hrest kind), ih]

theorem accept_of_mem (h : Stands way stop w c) {t : Token} {rest : List Token}
    (hrest : c.rest = t :: rest) {kinds : List TokenKind} (hkind : t.kind ∈ kinds) :
    way.accept kinds w = some (.ok true, w.next) := by
  induction kinds with
  | nil => cases hkind
  | cons kind kinds ih =>
      have hcheck := h.check_of_cons hrest kind
      by_cases hfirst : t.kind = kind
      · rw [beq_iff_eq.mpr hfirst] at hcheck
        rw [Way.accept, if_of_true hcheck, then_of_ok (h.advance_of_cons hrest)]
        rfl
      · rw [beq_eq_false_iff_ne.mpr hfirst] at hcheck
        rw [Way.accept, if_of_false hcheck]
        exact ih ((List.mem_cons.mp hkind).resolve_left hfirst)

theorem accept_of_not_mem (h : Stands way stop w c) {t : Token} {rest : List Token}
    (hrest : c.rest = t :: rest) {kinds : List TokenKind} (hkind : t.kind ∉ kinds) :
    way.accept kinds w = some (.ok false, w) := by
  induction kinds with
  | nil => rfl
  | cons kind kinds ih =>
      have hcheck := h.check_of_cons hrest kind
      rw [List.mem_cons, not_or] at hkind
      rw [beq_eq_false_iff_ne.mpr hkind.1] at hcheck
      rw [Way.accept, if_of_false hcheck]
      exact ih hkind.2

/-- A token of one of the categories stands next and is taken by both, or it does not and is taken
by neither. -/
theorem accept_cases (h : Stands way stop w c) {test : TokenKind → Bool}
    {kinds : List TokenKind} (htest : ∀ kind, test kind = true ↔ kind ∈ kinds) :
    (∃ t rest, c.rest = t :: rest ∧ way.accept kinds w = some (.ok true, w.next) ∧
      Parse.accept test c = .ok (some t) { c with rest }) ∨
    (way.accept kinds w = some (.ok false, w) ∧ Parse.accept test c = .ok none c) := by
  cases hrest : c.rest with
  | nil => exact .inr ⟨h.accept_of_nil hrest kinds, Parse.accept_of_nil test hrest⟩
  | cons t rest =>
      have hread := Parse.accept_of_cons test hrest
      by_cases hkind : t.kind ∈ kinds
      · rw [if_pos ((htest _).mpr hkind)] at hread
        exact .inl ⟨t, rest, rfl, h.accept_of_mem hrest hkind, hread⟩
      · rw [if_neg (mt (htest _).mp hkind)] at hread
        exact .inr ⟨h.accept_of_not_mem hrest hkind, hread⟩

theorem accept_one (h : Stands way stop w c) (kind : TokenKind) :
    (∃ t rest, c.rest = t :: rest ∧ way.accept [kind] w = some (.ok true, w.next) ∧
      Parse.accept (· == kind) c = .ok (some t) { c with rest }) ∨
    (way.accept [kind] w = some (.ok false, w) ∧ Parse.accept (· == kind) c = .ok none c) :=
  h.accept_cases (by simp)

theorem fail (h : Stands way stop w c) {cause : SyntaxCause} (hcause : cause ≠ .statementTooDeep) :
    Mirrors way stop w ((way.fail cause : Walk α) w)
      ((Parse.fail cause : Production α) c) := by
  rw [Way.fail, then_of_ok h.here]
  exact .failed (.refl h) (by simpa [Diagnostic.syntactic] using hcause)

theorem consume (h : Stands way stop w c) (kind : TokenKind) {cause : SyntaxCause}
    (hcause : cause ≠ .statementTooDeep) :
    Mirrors way stop w (way.consume kind cause w) (Parse.expect kind cause c) := by
  rw [Way.consume]
  cases hrest : c.rest with
  | nil =>
      rw [if_of_false (h.check_of_nil hrest kind), Parse.expect_of_nil _ _ hrest]
      have hfail := h.fail (α := Token) hcause
      rwa [Parse.fail, Cursor.peek_of_nil hrest] at hfail
  | cons t rest =>
      have hcheck := h.check_of_cons hrest kind
      rw [Parse.expect_of_cons _ _ hrest]
      by_cases hkind : t.kind = kind
      · rw [beq_iff_eq.mpr hkind] at hcheck
        rw [if_of_true hcheck, if_pos hkind, h.advance_of_cons hrest]
        exact .ok (h.kept_next hrest)
      · rw [beq_eq_false_iff_ne.mpr hkind] at hcheck
        rw [if_of_false hcheck, if_neg hkind]
        have hfail := h.fail (α := Token) hcause
        rwa [Parse.fail, Cursor.peek_of_cons hrest] at hfail

end Stands

theorem Stands.reported (h : Stands way stop w c) (d : Diagnostic) :
    Stands way stop (w.report d) (c.report d) :=
  ⟨h.place, h.ahead, h.rest, h.finish, congrArg (d :: ·) h.reports⟩

/-- Reports other than that statements nest too deeply. -/
theorem Stands.report (h : Stands way stop w c) {d : Diagnostic}
    (hcause : d.cause ≠ .syntactic .statementTooDeep) :
    Mirrors way stop w (report d w) (Parse.report d c) :=
  .ok ⟨h.reported d, rfl, rfl, Walker.excess_report_of_ne w hcause⟩

theorem mirrors_closing (h : Stands way stop w c) (kind : TokenKind) {cause : SyntaxCause}
    (hcause : cause ≠ .statementTooDeep) (a : α) :
    Mirrors way stop w ((do let _ ← way.consume kind cause; pure a : Walk α) w)
      ((do let _ ← Parse.expect kind cause; pure a : Production α) c) :=
  (h.consume kind hcause).bind fun _ _ _ _ hkept => .pure hkept.stands a

/-! ## Levels -/

theorem nest_of_full (h : Stands way stop w c) (cause : SyntaxCause) (hroom : w.room way = 0) :
    way.nest cause w = some (.error (.found (Diagnostic.syntactic c.peek cause)), w) := by
  have hfull : (way.limit : Int) ≤ w.depth := by
    unfold Walker.room at hroom
    omega
  rw [Way.nest, then_of_ok (a := w) rfl]
  simp only [if_pos hfull]
  rw [Way.fail, then_of_ok h.here]
  rfl

theorem nest_of_room (way : Way) (cause : SyntaxCause) {n : Nat}
    (hroom : w.room way = n + 1) : way.nest cause w = some (.ok (), w.deeper) := by
  have hfree : ¬ (way.limit : Int) ≤ w.depth := by
    unfold Walker.room at hroom
    omega
  rw [Way.nest, then_of_ok (a := w) rfl]
  simp only [if_neg hfree]
  rfl

namespace Mirrors

theorem unnested {p : Walk α} {s : Run α} (h : Mirrors way stop w.deeper (p w.deeper) s) :
    Mirrors way stop w (unnested p w.deeper) s := by
  have hback : ∀ {d : Int}, d = w.deeper.depth → d - 1 = w.depth := by
    intro d hd
    simp only [Walker.deeper] at hd
    omega
  generalize hr : p w.deeper = r at h
  cases h with
  | ok h =>
      rw [unnested_of_some hr]
      exact .ok ⟨h.stands.withDepth _, hback h.depth, h.unwinding, h.excess⟩
  | failed h hcause =>
      rw [unnested_of_some hr]
      exact .failed ⟨h.stands.withDepth _, hback h.depth, h.unwinding, h.excess⟩ hcause
  | tooDeep hstands hdepth hflag hexcess hcause =>
      rw [unnested_of_some hr]
      exact .tooDeep (hstands.withDepth _) (hback hdepth) hflag hexcess hcause
  | unwinding hstands hdepth hflag hexcess =>
      rw [unnested_of_some hr]
      exact .unwinding (hstands.withDepth _) (hback hdepth) hflag hexcess

theorem nested {p : Walk α} {s : Run α} (h : Stands way stop w c)
    (hfull : w.room way = 0 → s = Parse.fail .expressionTooDeep c)
    (hpart : ∀ n, w.room way = n + 1 → Mirrors way stop w.deeper (p w.deeper) s) :
    Mirrors way stop w
      ((way.nest .expressionTooDeep >>= fun _ => Walk.unnested p) w) s := by
  cases hroom : w.room way with
  | zero =>
      rw [then_of_error (nest_of_full h _ hroom), hfull hroom]
      exact .failed (.refl h) (by simp [Diagnostic.syntactic])
  | succ n =>
      rw [then_of_ok (nest_of_room way _ hroom)]
      exact (hpart n hroom).unnested

theorem restored_bind {p : Walk α} {q : Production α} {f : α → Walk β} {g : α → Production β}
    (depth : Int) (hp : Mirrors way stop w (p w) (q c))
    (hf : ∀ a w' c', Kept way stop w w' c' →
      Mirrors way stop { w' with depth } (restored depth (f a) w') (g a c')) :
    Mirrors way stop { w with depth } (restored depth (p >>= f) w) ((q >>= g) c) := by
  generalize hr : p w = r at hp
  generalize hs : q c = s at hp
  cases hp with
  | ok h =>
      rw [restored_congr depth (then_of_ok hr), Parse.bind_of_ok hs]
      exact (hf _ _ _ h).of_kept ⟨h.stands.withDepth depth, rfl, h.unwinding, h.excess⟩
  | failed h hcause =>
      rw [restored_of_some (then_of_error hr), Parse.bind_of_error hs]
      exact .failed ⟨h.stands.withDepth depth, rfl, h.unwinding, h.excess⟩ hcause
  | tooDeep hstands hdepth hflag hexcess hcause =>
      rw [restored_of_some (then_of_error hr), Parse.bind_of_error hs]
      exact .tooDeep (hstands.withDepth depth) rfl hflag hexcess hcause
  | unwinding hstands hdepth hflag hexcess =>
      rw [restored_of_some (then_of_error hr), Parse.bind_of_error hs]
      exact .unwinding (hstands.withDepth depth) rfl hflag hexcess

end Mirrors

/-! ## Expressions -/

theorem expression_eq (way : Way) : way.expression =
    way.nest .expressionTooDeep >>= fun _ => unnested way.assignment := by
  rw [Way.expression]
  rfl

def assigning (way : Way) (equals : Token) (target : Expr) : Walk Expr := do
  let value ← way.assignment
  match target with
  | .reference name => pure (.assign name value)
  | _ => do
      report (Diagnostic.syntactic equals .invalidAssignmentTarget)
      pure target

theorem assignment_eq (way : Way) : way.assignment =
    way.binary .equality >>= fun target => way.accept [.equal] >>= fun found =>
      if found = true then way.previous >>= fun equals =>
        way.nest .expressionTooDeep >>= fun _ => unnested (assigning way equals target)
      else pure target := by
  rw [Way.assignment]
  rfl

theorem binary_eq (way : Way) (tier : Tier) : way.binary tier =
    way.below tier >>= fun left => get >>= fun w => restored w.depth (way.joins tier left) := by
  rw [Way.binary]
  rfl

theorem joins_eq (way : Way) (tier : Tier) (left : Expr) :
    way.joins tier left = way.accept (operatorsOf tier) >>= fun found =>
      if found = true then way.previous >>= fun op =>
        way.nest .expressionTooDeep >>= fun _ => way.below tier >>= fun right =>
          way.joins tier (.binary left op right)
      else pure left := by
  rw [Way.joins]

theorem unary_eq (way : Way) : way.unary =
    way.accept [.bang, .minus] >>= fun found =>
      if found = true then way.previous >>= fun op =>
        way.nest .expressionTooDeep >>= fun _ =>
          unnested (way.unary >>= fun e => pure (.unary op e))
      else way.primary :=
  Way.unary.eq_1 way

/-- The parts of expressions that have `n` levels left mirror their productions. -/
structure OnLevel (way : Way) (stop n : Nat) : Prop where
  assignment : ∀ {w c}, Stands way stop w c → w.room way = n →
    Mirrors way stop w (way.assignment w)
      ((Parse.climb Tier.all n >>= Parse.assigned n) c)
  unary : ∀ {w c}, Stands way stop w c → w.room way = n →
    Mirrors way stop w (way.unary w) (Parse.operand n c)
  below : ∀ tier {w c}, Stands way stop w c → w.room way = n →
    Mirrors way stop w (way.below tier w) (Parse.climb tier.tighter n c)
  joins : ∀ tier left depth {w c}, Stands way stop w c → w.room way = n →
    Mirrors way stop { w with depth } (restored depth (way.joins tier left) w)
      (Parse.chain tier n left c)

section Expressions

variable {n : Nat} (ih : ∀ m, m < n → OnLevel way stop m)
include ih

theorem mirrors_expression (h : Stands way stop w c) (hroom : w.room way = n) :
    Mirrors way stop w (way.expression w) (Parse.expression n c) := by
  rw [expression_eq]
  refine .nested h (fun hfull => ?_) fun m hm => ?_
  · rw [← hroom, hfull, Parse.expression_zero]
  · obtain rfl : n = m + 1 := hroom.symm.trans hm
    rw [Parse.expression_succ]
    exact (ih m (Nat.lt_succ_self m)).assignment (h.withDepth _) (Walker.room_deeper hm)

theorem mirrors_elements (bracket : Token) (h : Stands way stop w c) (hroom : w.room way = n) :
    Mirrors way stop w (way.elements w) (Parse.elements n bracket c) := by
  induction hlen : c.rest.length using Nat.strongRecOn generalizing w c with
  | ind len ihlen =>
      rw [Way.elements, Parse.elements_eq n bracket h.finish]
      refine (mirrors_expression ih h hroom).bind fun e w₁ c₁ hrun hkept => ?_
      have hshort := Parse.expression_consumes n c e c₁ h.finish hrun
      rcases hkept.stands.accept_one .comma with ⟨t, rest, hrest, hwalk, hread⟩ | ⟨hwalk, hread⟩
      · have hnext := hkept.stands.kept_next hrest
        have hless : rest.length < len := by
          rw [hrest, List.length_cons] at hshort
          omega
        rw [if_of_true hwalk, Parse.bind_of_ok hread]
        refine Mirrors.of_kept hnext (Mirrors.bind ?_ fun es _ _ _ hk => .pure hk.stands _)
        exact ihlen _ hless hnext.stands ((hkept.trans hnext).room.trans hroom) rfl
      · rw [if_of_false hwalk, Parse.bind_of_ok hread]
        exact .pure hkept.stands _

theorem mirrors_array (bracket : Token) (h : Stands way stop w c) (hroom : w.room way = n)
    (hbracket : way.previous w = some (.ok bracket, w)) :
    Mirrors way stop w (way.array w) (Parse.listed n bracket c) := by
  have hmore : c.peek.kind ≠ .rightBracket → way.check .rightBracket w = some (.ok false, w) →
      Mirrors way stop w (way.array w) (Parse.listed n bracket c) := by
    intro hkind hcheck
    rw [Way.array, then_of_ok hbracket, Parse.listed, Parse.peek_bind,
      if_neg (by simpa using hkind)]
    refine Mirrors.bind ?_ fun elems _ _ _ hk =>
      mirrors_closing hk.stands .rightBracket (by simp) _
    rw [if_of_false hcheck]
    exact mirrors_elements ih bracket h hroom
  cases hrest : c.rest with
  | nil =>
      refine hmore ?_ (h.check_of_nil hrest _)
      have hend := h.finish
      rw [Cursor.peek_of_nil hrest]
      intro hkind
      rw [Token.isEnd, hkind] at hend
      cases hend
  | cons t rest =>
      have hcheck := h.check_of_cons hrest .rightBracket
      by_cases hkind : t.kind = .rightBracket
      · rw [beq_iff_eq.mpr hkind] at hcheck
        have hnone : (way.check .rightBracket >>= fun found => if found = true then pure []
            else way.elements) w = some (.ok [], w) := if_of_true hcheck
        have hclose : way.consume .rightBracket .expectBracketAfterArray w =
            some (.ok t, w.next) := by
          rw [Way.consume, if_of_true hcheck, h.advance_of_cons hrest]
        rw [Way.array, then_of_ok hbracket, then_of_ok hnone, then_of_ok hclose, Parse.listed,
          Parse.peek_bind, Cursor.peek_of_cons hrest, if_pos (by simpa using hkind),
          Parse.advance_bind, hrest]
        exact .ok (h.kept_next hrest)
      · rw [beq_eq_false_iff_ne.mpr hkind] at hcheck
        exact hmore (by rwa [Cursor.peek_of_cons hrest]) hcheck

theorem mirrors_primary (h : Stands way stop w c) (hroom : w.room way = n)
    (hsign : ∀ t ∈ c.rest.head?, t.kind ∉ [TokenKind.bang, .minus]) :
    Mirrors way stop w (way.primary w) (Parse.operand n c) := by
  cases hrest : c.rest with
  | nil =>
      have hnone : ∀ kinds, way.accept kinds w = some (.ok false, w) := h.accept_of_nil hrest
      rw [Way.primary, then_of_ok h.here, if_of_false (hnone _), if_of_false (hnone _),
        if_of_false (hnone _), if_of_false (hnone _), if_of_false (hnone _),
        if_of_false (hnone _), if_of_false (hnone _), Parse.operand_of_nil n hrest h.finish,
        Cursor.peek_of_nil hrest]
      exact .failed (.refl h) (by simp [Diagnostic.syntactic])
  | cons t rest =>
      have hnext := h.kept_next hrest
      have hprevious := h.previous_next hrest
      rw [Way.primary, then_of_ok h.here, Cursor.peek_of_cons hrest, Parse.operand_of_cons n hrest]
      by_cases hno : t.kind = .kwFalse
      · rw [if_of_true (h.accept_of_mem hrest (by simp [hno])),
          Parse.opening_eq_constant.mpr (.no hno)]
        exact .ok hnext
      rw [if_of_false (h.accept_of_not_mem hrest (by simpa using hno))]
      by_cases hyes : t.kind = .kwTrue
      · rw [if_of_true (h.accept_of_mem hrest (by simp [hyes])),
          Parse.opening_eq_constant.mpr (.yes hyes)]
        exact .ok hnext
      rw [if_of_false (h.accept_of_not_mem hrest (by simpa using hyes))]
      by_cases hnull : t.kind = .kwNil
      · rw [if_of_true (h.accept_of_mem hrest (by simp [hnull])),
          Parse.opening_eq_constant.mpr (.null hnull)]
        exact .ok hnext
      rw [if_of_false (h.accept_of_not_mem hrest (by simpa using hnull))]
      by_cases hliteral : t.kind ∈ [TokenKind.number, .string]
      · have hdenotes : Grammar.Denotes t t.literal := by
          rcases List.mem_pair.mp hliteral with hk | hk
          · exact .number hk
          · exact .string hk
        rw [if_of_true (h.accept_of_mem hrest hliteral), Parse.opening_eq_constant.mpr hdenotes]
        exact .ok hnext
      rw [if_of_false (h.accept_of_not_mem hrest hliteral)]
      by_cases hname : t.kind = .identifier
      · rw [if_of_true (h.accept_of_mem hrest (by simp [hname])), Parse.opening_eq_name.mpr hname]
        exact .ok hnext
      rw [if_of_false (h.accept_of_not_mem hrest (by simpa using hname))]
      by_cases hgroup : t.kind = .leftParen
      · rw [if_of_true (h.accept_of_mem hrest (by simp [hgroup])),
          Parse.opening_eq_group.mpr hgroup]
        refine Mirrors.of_kept hnext (Mirrors.bind ?_ fun e _ _ _ hk =>
          mirrors_closing hk.stands .rightParen (by simp) e)
        exact mirrors_expression ih hnext.stands (hnext.room.trans hroom)
      rw [if_of_false (h.accept_of_not_mem hrest (by simpa using hgroup))]
      by_cases harray : t.kind = .leftBracket
      · rw [if_of_true (h.accept_of_mem hrest (by simp [harray])),
          Parse.opening_eq_array.mpr harray]
        exact .of_kept hnext (mirrors_array ih t hnext.stands (hnext.room.trans hroom) hprevious)
      rw [if_of_false (h.accept_of_not_mem hrest (by simpa using harray))]
      have hother : Parse.opening t = .other := by
        have hmark : t.kind ∉ [TokenKind.bang, .minus] := hsign t (by simp [hrest])
        unfold Parse.opening
        split <;> simp_all
      rw [hother]
      exact .failed (.refl h) (by simp [Diagnostic.syntactic])

theorem mirrors_unary (h : Stands way stop w c) (hroom : w.room way = n) :
    Mirrors way stop w (way.unary w) (Parse.operand n c) := by
  rw [unary_eq]
  cases hrest : c.rest with
  | nil =>
      rw [if_of_false (h.accept_of_nil hrest _)]
      exact mirrors_primary ih h hroom (by simp [hrest])
  | cons t rest =>
      by_cases hkind : t.kind ∈ [TokenKind.bang, .minus]
      · have hnext := h.kept_next hrest
        have hopen : Parse.opening t = .sign := Parse.opening_eq_sign.mpr (by simpa using hkind)
        rw [if_of_true (h.accept_of_mem hrest hkind), then_of_ok (h.previous_next hrest),
          Parse.operand_of_cons n hrest, hopen]
        refine Mirrors.of_kept hnext (.nested hnext.stands (fun hfull => ?_) fun m hm => ?_)
        · obtain rfl : n = 0 := (hnext.room.trans hroom).symm.trans hfull
          rfl
        · obtain rfl : n = m + 1 := (hnext.room.trans hroom).symm.trans hm
          refine Mirrors.bind ?_ fun e _ _ _ hk => .pure hk.stands _
          exact (ih m (Nat.lt_succ_self m)).unary (hnext.stands.withDepth _)
            (Walker.room_deeper hm)
      · rw [if_of_false (h.accept_of_not_mem hrest hkind)]
        exact mirrors_primary ih h hroom (by simpa [hrest] using hkind)

theorem mirrors_joins (tier : Tier) (left : Expr) (depth : Int) (h : Stands way stop w c)
    (hroom : w.room way = n) :
    Mirrors way stop { w with depth } (restored depth (way.joins tier left) w)
      (Parse.chain tier n left c) := by
  rw [joins_eq, Parse.chain_eq]
  rcases h.accept_cases (@Parse.operators_eq_true tier) with
    ⟨op, rest, hrest, hwalk, hread⟩ | ⟨hwalk, hread⟩
  · have hnext := h.kept_next hrest
    rw [restored_congr depth (if_of_true hwalk), restored_congr depth
      (then_of_ok (h.previous_next hrest)), Parse.bind_of_ok hread]
    cases n with
    | zero =>
        have hfull := nest_of_full hnext.stands .expressionTooDeep (hnext.room.trans hroom)
        rw [restored_of_some (then_of_error hfull)]
        exact .failed ⟨hnext.stands.withDepth depth, rfl, rfl, rfl⟩ (by simp [Diagnostic.syntactic])
    | succ m =>
        have hm : w.next.room way = m + 1 := hnext.room.trans hroom
        have hlevel := ih m (Nat.lt_succ_self m)
        have hdeeper := hnext.stands.withDepth w.next.deeper.depth
        have hkept : Kept way stop { w with depth } { w.next.deeper with depth }
            { c with rest } := ⟨hnext.stands.withDepth depth, rfl, rfl, rfl⟩
        rw [restored_congr depth (then_of_ok (nest_of_room way _ hm))]
        refine .of_kept hkept (.restored_bind depth ?_ ?_)
        · exact hlevel.below tier hdeeper (Walker.room_deeper hm)
        · intro right w' c' hk
          exact hlevel.joins tier _ depth hk.stands (hk.room.trans (Walker.room_deeper hm))
  · rw [restored_congr depth (if_of_false hwalk), Parse.bind_of_ok hread]
    exact .ok ⟨h.withDepth depth, rfl, rfl, rfl⟩

theorem mirrors_binary (tier : Tier) (hbelow : ∀ {w c}, Stands way stop w c → w.room way = n →
      Mirrors way stop w (way.below tier w) (Parse.climb tier.tighter n c))
    (h : Stands way stop w c) (hroom : w.room way = n) :
    Mirrors way stop w (way.binary tier w)
      (Parse.climb (tier.tighter ++ [tier]) n c) := by
  rw [binary_eq, Parse.climb_snoc]
  refine (hbelow h hroom).bind fun left w₁ c₁ _ hk => ?_
  rw [then_of_ok (a := w₁) rfl]
  exact mirrors_joins ih tier left w₁.depth hk.stands (hk.room.trans hroom)

theorem mirrors_below (tier : Tier) (h : Stands way stop w c) (hroom : w.room way = n) :
    Mirrors way stop w (way.below tier w) (Parse.climb tier.tighter n c) := by
  have hfactor : ∀ {w c}, Stands way stop w c → w.room way = n →
      Mirrors way stop w (way.below .factor w) (Parse.climb Tier.factor.tighter n c) := by
    intro w c h hroom
    rw [Way.below, Tier.tighter, Parse.climb, funext (Parse.chains_nil n), bind_pure]
    exact mirrors_unary ih h hroom
  have hterm : ∀ {w c}, Stands way stop w c → w.room way = n →
      Mirrors way stop w (way.below .term w) (Parse.climb Tier.term.tighter n c) := by
    intro w c h hroom
    rw [Way.below]
    exact mirrors_binary ih .factor hfactor h hroom
  have hcomparison : ∀ {w c}, Stands way stop w c → w.room way = n →
      Mirrors way stop w (way.below .comparison w)
        (Parse.climb Tier.comparison.tighter n c) := by
    intro w c h hroom
    rw [Way.below]
    exact mirrors_binary ih .term hterm h hroom
  cases tier with
  | factor => exact hfactor h hroom
  | term => exact hterm h hroom
  | comparison => exact hcomparison h hroom
  | equality =>
      rw [Way.below]
      exact mirrors_binary ih .comparison hcomparison h hroom

theorem mirrors_assignment (h : Stands way stop w c) (hroom : w.room way = n) :
    Mirrors way stop w (way.assignment w)
      ((Parse.climb Tier.all n >>= Parse.assigned n) c) := by
  rw [assignment_eq]
  refine (mirrors_binary ih .equality (mirrors_below ih .equality) h hroom).bind
    fun target w₁ c₁ _ hk => ?_
  rw [Parse.assigned]
  rcases hk.stands.accept_one .equal with ⟨equals, rest, hrest, hwalk, hread⟩ | ⟨hwalk, hread⟩
  · have hnext := hk.stands.kept_next hrest
    have hsame := (hk.trans hnext).room.trans hroom
    rw [if_of_true hwalk, then_of_ok (hk.stands.previous_next hrest), Parse.bind_of_ok hread]
    refine Mirrors.of_kept hnext (.nested hnext.stands (fun hfull => ?_) fun m hm => ?_)
    · obtain rfl : n = 0 := hsame.symm.trans hfull
      rw [Parse.expression_zero]
      exact Parse.bind_of_error rfl
    · obtain rfl : n = m + 1 := hsame.symm.trans hm
      rw [Parse.expression_succ]
      refine Mirrors.bind ((ih m (Nat.lt_succ_self m)).assignment (hnext.stands.withDepth _)
        (Walker.room_deeper hm)) fun value w₂ c₂ _ hk₂ => ?_
      have hinvalid : (Diagnostic.syntactic equals .invalidAssignmentTarget).cause ≠
          .syntactic .statementTooDeep := by simp [Diagnostic.syntactic]
      cases target
      case reference name => exact .pure hk₂.stands _
      all_goals exact (hk₂.stands.report hinvalid).bind fun _ _ _ _ hk₃ => .pure hk₃.stands _
  · rw [if_of_false hwalk, Parse.bind_of_ok hread]
    exact .pure hk.stands target

end Expressions

theorem onLevel (way : Way) (stop n : Nat) : OnLevel way stop n := by
  induction n using Nat.strongRecOn with
  | ind n ih =>
      exact ⟨mirrors_assignment ih, mirrors_unary ih, fun tier _ _ => mirrors_below ih tier,
        fun tier left depth _ _ => mirrors_joins ih tier left depth⟩

end Walk

end Scribe
