import Scribe.Proofs.Parse.Locality

/-!
# Texts one behind the other

A declaration that parses at the end of a text parses in the same way when more text follows,
unless that begins with `else`. A declaration that goes wrong in a text without blocks stops before
its last semicolon, and what is skipped then ends behind a semicolon of the same text. So the
statements and reports of two texts come one after the other.
-/

namespace Scribe

namespace Parse

/-- The text behind does not begin with `else`. -/
def Context.Detached (k : Context) : Prop := ∀ t ∈ k.behind.head?, t.kind ≠ .kwElse

/-- A success at `c` is one in every longer text that does not go on with `else`. -/
def Settles (p : Production α) (c : Cursor) : Prop :=
  ∀ k : Context, k.Detached → ∀ a c', p c = .ok a c' → p (c.into k) = .ok a (c'.into k)

namespace Settles

variable {c : Cursor}

theorem pure (a : α) (c : Cursor) : Settles (pure a) c := by
  intro k _ b c' hrun
  cases hrun
  rfl

theorem bind {p : Production α} {f : α → Production β} (hp : Settles p c)
    (hf : ∀ a c', p c = .ok a c' → Settles (f a) c') : Settles (p >>= f) c := by
  intro k hk b c'' hrun
  obtain ⟨a, c', hpa, hfa⟩ := bind_eq_ok.mp hrun
  rw [bind_of_ok (hp k hk a c' hpa)]
  exact hf a c' hpa k hk b c'' hfa

theorem expect (kind : TokenKind) (cause : SyntaxCause) (c : Cursor) :
    Settles (expect kind cause) c := by
  intro k _ t c' hrun
  obtain ⟨rest, hrest, ht, rfl⟩ := expect_eq_ok.mp hrun
  exact expect_eq_ok.mpr ⟨rest ++ k.behind, into_of_cons hrest, ht, rfl⟩

theorem advance {t : Token} {rest : List Token} (h : c.rest = t :: rest) : Settles advance c := by
  intro k _ a c' hrun
  cases hrun
  simp [Parse.advance, Cursor.into, h]

theorem acceptElse (c : Cursor) : Settles (accept (· == .kwElse)) c := by
  intro k hk found c' hrun
  have hinto : accept (· == .kwElse) (c.into k) = Run.into k (accept (· == .kwElse) c) :=
    accept_into fun _ t ht => by simpa using hk t ht
  rw [hinto, hrun]
  rfl

/-- What stands before a token that is expected does not see the end of the text. -/
theorem beforeExpect {p : Production α} {kind : TokenKind} {cause : SyntaxCause}
    {g : α → Token → Production β} (hp : Local p c)
    (hg : ∀ a t c₁ c₂, p c = .ok a c₁ → Parse.expect kind cause c₁ = .ok t c₂ →
      Settles (g a t) c₂) :
    Settles (p >>= fun a => Parse.expect kind cause >>= g a) c := by
  intro k hk b c' hrun
  obtain ⟨a, c₁, hpa, hrun⟩ := bind_eq_ok.mp hrun
  obtain ⟨t, c₂, hexp, hga⟩ := bind_eq_ok.mp hrun
  obtain ⟨rest, hrest, -, -⟩ := expect_eq_ok.mp hexp
  have hunseen : k.Unseen c₁ := .inl (by simp [hrest])
  rw [bind_of_ok (hp.of_ok hpa hunseen), bind_of_ok (expect kind cause c₁ k hk t c₂ hexp)]
  exact hg a t c₁ c₂ hpa hexp k hk b c' hga

/-- What stands before the last token of a statement does not see the end of the text. -/
theorem closed {p : Production α} (hp : Local p c) (kind : TokenKind) (cause : SyntaxCause)
    (f : α → β) :
    Settles (do let a ← p; let _ ← Parse.expect kind cause; Pure.pure (f a)) c :=
  beforeExpect hp fun a _ _ c₂ _ _ => pure (f a) c₂

end Settles

section Statements

variable {n : Nat} {c : Cursor}

theorem initialized_settles (name : Token) (hend : c.finish.isEnd) :
    Settles (initialized n name) c := by
  intro k hk s c' hrun
  cases hrest : c.rest with
  | nil =>
      have hnone := accept_of_nil (· == .equal) hrest
      rw [initialized, bind_of_ok hnone] at hrun
      obtain ⟨t, d, hexp, -⟩ := bind_eq_ok.mp hrun
      rw [expect_of_nil _ _ hrest] at hexp
      cases hexp
  | cons t rest =>
      have hacc : accept (· == .equal) (c.into k) = Run.into k (accept (· == .equal) c) :=
        accept_into fun hnil => by
          rw [hrest] at hnil
          cases hnil
      obtain ⟨found, c₁, hfound, hbehind⟩ := bind_eq_ok.mp hrun
      have hf₁ := ((Local.accept (· == .equal) c).advances.ahead_of_ok hfound).finish
      rw [hfound] at hacc
      rw [initialized, bind_of_ok hacc]
      cases found with
      | none =>
          have hclose : Settles (do
              let _ ← expect .semicolon .expectSemicolonAfterDeclaration
              pure (Stmt.declare name .absent)) c₁ :=
            (Settles.expect _ _ c₁).bind fun _ d _ => .pure _ d
          exact hclose k hk s c' hbehind
      | some _ =>
          have hexpr := expression_local n c₁ (hf₁ ▸ hend)
          exact Settles.closed hexpr _ _ (Stmt.declare name) k hk s c' hbehind

theorem otherwise_settles (h : ∀ c, c.finish.isEnd → Settles (statement n) c) (keyword : Token)
    (cond : Expr) (yes : Stmt) (hend : c.finish.isEnd) :
    Settles (otherwise n keyword cond yes) c := by
  refine (Settles.acceptElse c).bind ?_
  intro found c' hacc
  have hfinish := ((Local.accept (· == .kwElse) c).advances.ahead_of_ok hacc).finish
  cases found with
  | none => exact .pure _ c'
  | some _ => exact (h c' (hfinish ▸ hend)).bind fun no d _ => .pure _ d

theorem branched_settles (h : ∀ c, c.finish.isEnd → Settles (statement n) c) (keyword : Token)
    (hend : c.finish.isEnd) : Settles (branched n keyword) c := by
  refine (Settles.expect _ _ c).bind ?_
  intro _ c₁ hparen
  have hf₁ := ((Local.expect _ _ c).advances.ahead_of_ok hparen).finish
  have hcond := expression_local n c₁ (hf₁ ▸ hend)
  refine Settles.beforeExpect hcond ?_
  intro cond _ c₂ c₃ hrun hexp
  have hf₂ := (hcond.advances.ahead_of_ok hrun).finish
  have hf₃ := ((Local.expect _ _ c₂).advances.ahead_of_ok hexp).finish
  have hend₃ : c₃.finish.isEnd := hf₃ ▸ hf₂ ▸ hf₁ ▸ hend
  refine (h c₃ hend₃).bind ?_
  intro yes c₄ hyes
  have hf₄ := ((statement_advances n c₃ hend₃).ahead_of_ok hyes).finish
  exact otherwise_settles h keyword cond yes (hf₄ ▸ hend₃)

theorem statementBehind_settles (h : ∀ c, c.finish.isEnd → Settles (statement n) c) {t : Token}
    {rest : List Token} (hrest : c.rest = t :: rest) (hend : c.finish.isEnd) :
    Settles (statementBehind n t) c := by
  have hadvance : ∀ {p : Production Stmt}, (∀ d, d.finish.isEnd → Settles p d) →
      Settles (advance >>= fun _ => p) c := by
    intro p hp
    refine (Settles.advance hrest).bind ?_
    intro _ d hd
    cases hd
    exact hp _ hend
  unfold statementBehind
  split
  · exact hadvance fun d hd => .closed (expression_local n d hd) _ _ (Stmt.print t)
  · refine hadvance fun d hd => .closed ?_ _ _ (Stmt.block t)
    exact local_stableThroughout.items n d (declaration_local n) hd
  · exact hadvance fun d hd => branched_settles h t hd
  · exact .closed (expression_local n c hend) _ _ Stmt.expression

/-- What a statement leaves behind its last token does not matter to it, `else` apart. -/
theorem statement_settles (n : Nat) (c : Cursor) (hend : c.finish.isEnd) :
    Settles (statement n) c := by
  induction n generalizing c with
  | zero =>
      intro k _ s c' hrun
      cases hrun
  | succ n ih =>
      intro k hk s c' hrun
      cases hrest : c.rest with
      | nil =>
          have hlen := statement_consumes (n + 1) c s c' hend hrun
          rw [hrest] at hlen
          exact absurd hlen (Nat.not_lt_zero _)
      | cons t rest =>
          rw [statement_succ, peek_bind, Cursor.peek_of_cons hrest] at hrun
          rw [statement_succ, peek_bind, Cursor.peek_of_cons (into_of_cons hrest)]
          exact statementBehind_settles ih hrest hend k hk s c' hrun

theorem declaration_settles (n : Nat) (c : Cursor) (hend : c.finish.isEnd) :
    Settles (declaration n) c := by
  intro k hk s c' hrun
  cases hrest : c.rest with
  | nil =>
      have hlen := declaration_consumes n c s c' hend hrun
      rw [hrest] at hlen
      exact absurd hlen (Nat.not_lt_zero _)
  | cons t rest =>
      rw [declaration_of_cons n hrest] at hrun
      rw [declaration_of_cons n (into_of_cons hrest)]
      split at hrun
      · next hintro =>
        rw [if_pos hintro]
        have hdeclared : Settles (declared n) { c with rest } := by
          rw [declared_eq]
          refine (Settles.expect _ _ _).bind ?_
          intro name d hname
          have hf := ((Local.expect _ _ _).advances.ahead_of_ok hname).finish
          exact initialized_settles name (hf ▸ hend)
        exact hdeclared k hk s c' hrun
      · next hstmt =>
        rw [if_neg hstmt]
        exact statement_settles n c hend k hk s c' hrun

end Statements

/-! ## Errors before the last semicolon -/

def Cursor.Terminated (c : Cursor) : Prop := ∃ t, c.rest.getLast? = some t ∧ t.kind = .semicolon

namespace Cursor.Terminated

variable {c c' : Cursor}

theorem rest_ne_nil (h : c.Terminated) : c.rest ≠ [] := by
  obtain ⟨t, hlast, -⟩ := h
  intro hnil
  rw [hnil] at hlast
  cases hlast

/-- As long as a token is left, the last one is. -/
theorem of_ahead {taken : TokenKind → Prop} (h : c.Terminated) (hahead : Ahead taken c c')
    (hne : c'.rest ≠ []) : c'.Terminated := by
  obtain ⟨t, hlast, hk⟩ := h
  obtain ⟨used, hused, -⟩ := hahead.passed
  refine ⟨t, ?_, hk⟩
  rw [hused, List.getLast?_append, List.getLast?_eq_some_getLast hne] at hlast
  rw [List.getLast?_eq_some_getLast hne]
  exact hlast

/-- Without taking a semicolon, the last one is not reached. -/
theorem of_quiet (h : c.Terminated) (hahead : Ahead notSemicolon c c') : c'.Terminated := by
  refine h.of_ahead hahead ?_
  intro hnil
  obtain ⟨t, hlast, hk⟩ := h
  obtain ⟨used, hused, htaken⟩ := hahead.passed
  rw [hused, hnil, List.append_nil] at hlast
  exact htaken t (List.mem_of_getLast? hlast) hk

end Cursor.Terminated

/-- A failure at `c` leaves the last semicolon of the text. -/
def Halts (p : Production α) (c : Cursor) : Prop := ∀ e d, p c = .error e d → d.Terminated

namespace Halts

variable {c : Cursor}

theorem of_advances {p : Production α} (h : Advances notSemicolon p c) (hc : c.Terminated) :
    Halts p c :=
  fun _ _ hrun => hc.of_quiet (h.ahead_of_error hrun)

theorem pure (a : α) (c : Cursor) : Halts (pure a) c := by
  intro e d hrun
  cases hrun

theorem expect (kind : TokenKind) (cause : SyntaxCause) (hc : c.Terminated) :
    Halts (expect kind cause) c := by
  intro e d hrun
  cases hrest : c.rest with
  | nil => exact absurd hrest hc.rest_ne_nil
  | cons t rest =>
      rw [expect_of_cons kind cause hrest] at hrun
      split at hrun
      · cases hrun
      · cases hrun
        exact hc

theorem bind {p : Production α} {f : α → Production β} (hp : Halts p c)
    (hf : ∀ a c', p c = .ok a c' → Halts (f a) c') : Halts (p >>= f) c := by
  intro e d hrun
  cases hpc : p c with
  | ok a c' =>
      rw [bind_of_ok hpc] at hrun
      exact hf a c' hpc e d hrun
  | error e' d' =>
      rw [bind_of_error hpc] at hrun
      cases hrun
      exact hp _ _ hpc

/-- Behind a part that takes no semicolon, the last one is still there. -/
theorem bindQuiet {p : Production α} {f : α → Production β} (hp : Advances notSemicolon p c)
    (hc : c.Terminated)
    (hf : ∀ a c', c'.Terminated → c'.finish = c.finish → Halts (f a) c') : Halts (p >>= f) c :=
  (of_advances hp hc).bind fun a c' hrun =>
    have hahead := hp.ahead_of_ok hrun
    hf a c' (hc.of_quiet hahead) hahead.finish

theorem closed {p : Production α} (hp : Advances notSemicolon p c) (hc : c.Terminated)
    (kind : TokenKind) (cause : SyntaxCause) (f : α → β) :
    Halts (do let a ← p; let _ ← Parse.expect kind cause; Pure.pure (f a)) c :=
  bindQuiet hp hc fun a _ hc' _ => (expect kind cause hc').bind fun _ d _ => pure (f a) d

end Halts

def Cursor.Braceless (c : Cursor) : Prop := ∀ t ∈ c.rest, t.kind ≠ .leftBrace

theorem Cursor.Braceless.of_ahead {taken : TokenKind → Prop} {c c' : Cursor} (h : c.Braceless)
    (hahead : Ahead taken c c') : c'.Braceless := by
  obtain ⟨used, hused, -⟩ := hahead.passed
  intro t ht
  exact h t (by rw [hused]; exact List.mem_append_right used ht)

section Statements

variable {n : Nat} {c : Cursor}

theorem initialized_halts (name : Token) (hend : c.finish.isEnd) (hc : c.Terminated) :
    Halts (initialized n name) c := by
  have hacc : Advances notSemicolon (accept (· == .equal)) c :=
    .accept (by simp [notSemicolon]) c
  refine Halts.bindQuiet hacc hc ?_
  intro found c' hc' hf
  cases found with
  | none => exact (Halts.expect _ _ hc').bind fun _ d _ => .pure _ d
  | some _ =>
      exact .closed (expression_advances n c' (hf ▸ hend)) hc' _ _ (Stmt.declare name)

theorem declared_halts (hend : c.finish.isEnd) (hc : c.Terminated) : Halts (declared n) c := by
  rw [declared_eq]
  refine Halts.bindQuiet (.expect (by simp [notSemicolon]) _ c) hc ?_
  intro name c' hc' hf
  exact initialized_halts name (hf ▸ hend) hc'

theorem branched_halts
    (h : ∀ c, c.finish.isEnd → c.Terminated → c.Braceless → Halts (statement n) c)
    (keyword : Token) (hend : c.finish.isEnd) (hc : c.Terminated) (hbrace : c.Braceless) :
    Halts (branched n keyword) c := by
  have hparen : Advances notSemicolon (expect .leftParen .expectParenAfterIf) c :=
    .expect (by simp [notSemicolon]) _ c
  refine (Halts.of_advances hparen hc).bind ?_
  intro _ c₁ hrun₁
  have hahead₁ := hparen.ahead_of_ok hrun₁
  have hend₁ : c₁.finish.isEnd := hahead₁.finish ▸ hend
  have hc₁ := hc.of_quiet hahead₁
  have hcond := expression_advances n c₁ hend₁
  refine (Halts.of_advances hcond hc₁).bind ?_
  intro cond c₂ hrun₂
  have hahead₂ := hcond.ahead_of_ok hrun₂
  have hc₂ := hc₁.of_quiet hahead₂
  have hclose : Advances notSemicolon (expect .rightParen .expectParenAfterCondition) c₂ :=
    .expect (by simp [notSemicolon]) _ c₂
  refine (Halts.of_advances hclose hc₂).bind ?_
  intro _ c₃ hrun₃
  have hahead₃ := hclose.ahead_of_ok hrun₃
  have hend₃ : c₃.finish.isEnd := hahead₃.finish ▸ hahead₂.finish ▸ hend₁
  have hc₃ := hc₂.of_quiet hahead₃
  have hbrace₃ := ((hbrace.of_ahead hahead₁).of_ahead hahead₂).of_ahead hahead₃
  refine (h c₃ hend₃ hc₃ hbrace₃).bind ?_
  intro yes c₄ hrun₄
  have hahead₄ := (statement_advances n c₃ hend₃).ahead_of_ok hrun₄
  have hend₄ : c₄.finish.isEnd := hahead₄.finish ▸ hend₃
  have helse : Advances notSemicolon (accept (· == .kwElse)) c₄ :=
    .accept (by simp [notSemicolon]) c₄
  rcases accept_cases (· == .kwElse) c₄ with ⟨t, rest, hrest, -, hacc⟩ | ⟨-, hacc⟩
  · have hc₄ := hc₃.of_ahead hahead₄ (by simp [hrest])
    refine (Halts.of_advances helse hc₄).bind ?_
    intro found c₅ hrun₅
    rw [hacc] at hrun₅
    cases hrun₅
    have hahead₅ := helse.ahead_of_ok hacc
    have hno := h _ (hahead₅.finish ▸ hend₄) (hc₄.of_quiet hahead₅)
      ((hbrace₃.of_ahead hahead₄).of_ahead hahead₅)
    exact hno.bind fun no d _ => .pure _ d
  · intro e d hrun
    rw [otherwise, bind_of_ok hacc] at hrun
    cases hrun

/-- In a text without blocks, a statement gives up before the last semicolon. -/
theorem statement_halts (n : Nat) (c : Cursor) (hend : c.finish.isEnd) (hc : c.Terminated)
    (hbrace : c.Braceless) : Halts (statement n) c := by
  induction n generalizing c with
  | zero =>
      intro e d hrun
      cases hrun
      exact hc
  | succ n ih =>
      cases hrest : c.rest with
      | nil => exact absurd hrest hc.rest_ne_nil
      | cons t rest =>
          have hnext : t.kind ≠ .semicolon → Ahead notSemicolon c { c with rest } :=
            fun hk => .take hrest hk
          intro e d hrun
          rw [statement_of_cons n hrest] at hrun
          split at hrun
          · next hk =>
            have hc' : Cursor.Terminated { c with rest } :=
              hc.of_quiet (hnext (by rw [hk]; decide))
            exact Halts.closed (expression_advances n { c with rest } hend) hc' _ _
              (Stmt.print t) e d hrun
          · next hk => exact absurd hk (hbrace t (by simp [hrest]))
          · next hk =>
            have hahead := hnext (by rw [hk]; decide)
            exact branched_halts (c := { c with rest }) ih t hend (hc.of_quiet hahead)
              (hbrace.of_ahead hahead) e d hrun
          · exact Halts.closed (expression_advances n c hend) hc _ _ Stmt.expression e d hrun

theorem declaration_halts (n : Nat) (c : Cursor) (hend : c.finish.isEnd) (hc : c.Terminated)
    (hbrace : c.Braceless) : Halts (declaration n) c := by
  have hacc : Advances notSemicolon (accept introduces) c :=
    .accept (by simp [introduces, notSemicolon]) c
  refine (Halts.of_advances hacc hc).bind ?_
  intro found c' hrun
  have hahead := hacc.ahead_of_ok hrun
  have hend' : c'.finish.isEnd := hahead.finish ▸ hend
  cases found with
  | none => exact statement_halts n c' hend' (hc.of_quiet hahead) (hbrace.of_ahead hahead)
  | some _ => exact declared_halts hend' (hc.of_quiet hahead)

end Statements

theorem boundaryAfter_terminated {last t : Token} {rest : List Token} (behind : List Token)
    (hlast : (last :: rest).getLast? = some t) (ht : t.kind = .semicolon) :
    boundaryAfter last (rest ++ behind) = boundaryAfter last rest ++ behind := by
  induction rest generalizing last with
  | nil =>
      have hk : last.kind = .semicolon := by
        rw [List.getLast?_singleton, Option.some.injEq] at hlast
        rw [hlast, ht]
      cases behind with
      | nil => rfl
      | cons b behind => simp [boundaryAfter, hk]
  | cons u rest ih =>
      rw [List.cons_append]
      unfold boundaryAfter
      split
      · rfl
      · exact ih (by rwa [List.getLast?_cons_cons] at hlast)

theorem synchronize_terminated {k : Context} {c : Cursor} (h : c.Terminated) :
    synchronize (c.into k) = (synchronize c).into k := by
  obtain ⟨t, hlast, ht⟩ := h
  cases hrest : c.rest with
  | nil =>
      rw [hrest] at hlast
      cases hlast
  | cons u rest =>
      rw [hrest] at hlast
      rw [synchronize_of_cons hrest, synchronize_of_cons (into_of_cons hrest),
        boundaryAfter_terminated k.behind hlast ht]
      rfl

/-! ## Whole texts -/

theorem abandoned_into (e : Fault) {k : Context} {d : Cursor}
    (h : ∀ c : Cursor, c.rest = d.rest → c.finish = d.finish →
      synchronize (c.into k) = (synchronize c).into k) :
    abandoned e (d.into k) = (abandoned e d).into k := by
  cases e with
  | failed diag => exact h (d.report diag) rfl rfl
  | tooDeep diag => exact h (d.report diag) rfl rfl
  | unwinding => exact h d rfl rfl

/-- A declaration of the text is the same in the longer text. -/
def SameIn (k : Context) (limit : Nat) (c : Cursor) : Prop :=
  outermost limit (c.into k) = ((outermost limit c).1, (outermost limit c).2.into k)

theorem sameIn_of_ok {k : Context} {limit : Nat} {c d : Cursor} {s : Stmt}
    (h : declaration limit c = .ok s d) (hk : k.Detached) (hend : c.finish.isEnd) :
    SameIn k limit c := by
  have hinto := declaration_settles limit c hend k hk s d h
  rw [SameIn, outermost_of_ok h, outermost_of_ok hinto]

theorem sameIn_of_error {k : Context} {limit : Nat} {c d : Cursor} {e : Fault}
    (h : declaration limit c = .error e d) (hk : k.Unseen d) (hend : c.finish.isEnd)
    (hskip : ∀ c : Cursor, c.rest = d.rest → c.finish = d.finish →
      synchronize (c.into k) = (synchronize c).into k) : SameIn k limit c := by
  have hinto := (declaration_local limit c hend).of_error h hk
  rw [SameIn, outermost_of_error h, outermost_of_error hinto, abandoned_into e hskip]

/-- If each declaration is the same in the longer text, the whole text is, and what follows is
parsed behind it. `Inv` holds at the start of each declaration. -/
theorem program_into (limit : Nat) (k : Context) {Inv : Cursor → Prop}
    (hstep : ∀ c, Inv c → c.finish.isEnd → c.rest ≠ [] →
      SameIn k limit c ∧ Inv (outermost limit c).2)
    {c : Cursor} (hc : Inv c) (hend : c.finish.isEnd) :
    program limit (c.into k) =
      ((program limit c).1 ++ (program limit ((program limit c).2.into k)).1,
        (program limit ((program limit c).2.into k)).2) := by
  induction c, hend using program_induction limit with
  | done c _ hnil => rw [program_of_nil limit hnil, List.nil_append]
  | next c hend _ hne ih =>
      obtain ⟨hsame, hinv⟩ := hstep c hc hend hne
      have hne' : (c.into k).rest ≠ [] := by simp [Cursor.into, hne]
      rw [program_of_ne_nil limit (c := c.into k) k.isEnd hne', hsame,
        program_of_ne_nil limit hend hne]
      simp only [withFirst]
      rw [ih hinv]
      simp only [List.append_assoc]

theorem program_rest (limit : Nat) {c : Cursor} (hend : c.finish.isEnd) :
    (program limit c).2.rest = [] := by
  induction c, hend using program_induction limit with
  | done c _ hnil =>
      rw [program_of_nil limit hnil]
      exact hnil
  | next c hend _ hne ih =>
      rw [program_of_ne_nil limit hend hne]
      exact ih

/-- Earlier reports stay, and nothing depends on them. -/
theorem program_earlier (limit : Nat) {k : Context} {c : Cursor} (hend : c.finish.isEnd)
    (hbehind : k.behind = []) (hfinish : k.finish = c.finish) :
    program limit (c.into k) = ((program limit c).1, (program limit c).2.into k) := by
  have hunseen : ∀ d : Cursor, d.finish = c.finish → k.Unseen d :=
    fun d hd => .inr ⟨hbehind, hfinish.trans hd.symm⟩
  have hstep : ∀ d : Cursor, d.finish = c.finish → d.finish.isEnd → d.rest ≠ [] →
      SameIn k limit d ∧ (outermost limit d).2.finish = c.finish := by
    intro d hd hend' _
    refine ⟨?_, (outermost_ahead limit hend').finish.trans hd⟩
    cases hrun : declaration limit d with
    | ok s d' => exact sameIn_of_ok hrun (by simp [Context.Detached, hbehind]) hend'
    | error e d' =>
        have hd' := ((declaration_advances limit d hend').ahead_of_error hrun).finish.trans hd
        refine sameIn_of_error hrun (hunseen d' hd') hend' ?_
        intro c' _ hc'
        exact synchronize_into (hunseen _ ((synchronize_ahead c').finish.trans (hc'.trans hd')))
  have hnil : ((program limit c).2.into k).rest = [] := by
    rw [Cursor.into, program_rest limit hend, hbehind, List.append_nil]
  rw [program_into limit k hstep rfl hend, program_of_nil limit hnil, List.append_nil]

/-- Without reports, each declaration of the text parses, so that it parses in the longer text. -/
theorem sameIn_of_quiet {k : Context} {limit : Nat} {c : Cursor} (hk : k.Detached)
    (hquiet : (program limit c).2.reports = c.reports) (hend : c.finish.isEnd)
    (hne : c.rest ≠ []) :
    SameIn k limit c ∧
      (program limit (outermost limit c).2).2.reports = (outermost limit c).2.reports := by
  have hahead := outermost_ahead limit hend
  rw [program_of_ne_nil limit hend hne] at hquiet
  obtain ⟨hfirst, hlater⟩ := hahead.quiet (program_ahead limit (hahead.finish ▸ hend)) hquiet
  refine ⟨?_, hlater⟩
  cases hrun : declaration limit c with
  | ok s d => exact sameIn_of_ok hrun hk hend
  | error e d =>
      have hmore := outermost_reports limit hend (by rw [outermost_of_error hrun])
      rw [hfirst] at hmore
      exact absurd hmore (Nat.lt_irrefl _)

/-- What is left of a text without blocks, which ends in a semicolon or is at its end. -/
def Cursor.Simple (c : Cursor) : Prop := c.Braceless ∧ (c.rest ≠ [] → c.Terminated)

/-- In such a text, an error is skipped up to a boundary of the same text. -/
theorem sameIn_of_simple {k : Context} {limit : Nat} {c : Cursor} (hk : k.Detached)
    (hc : c.Simple) (hend : c.finish.isEnd) (hne : c.rest ≠ []) :
    SameIn k limit c ∧ (outermost limit c).2.Simple := by
  have hahead := outermost_ahead limit hend
  refine ⟨?_, hc.1.of_ahead hahead, (hc.2 hne).of_ahead hahead⟩
  cases hrun : declaration limit c with
  | ok s d => exact sameIn_of_ok hrun hk hend
  | error e d =>
      have hd := declaration_halts limit c hend (hc.2 hne) hc.1 e d hrun
      refine sameIn_of_error hrun (.inl hd.rest_ne_nil) hend ?_
      intro c' hrest _
      refine synchronize_terminated ?_
      rw [Cursor.Terminated, hrest]
      exact hd

/-- The statements and the reports of two texts come one after the other if nothing is reported of
the first, or if it holds no block and ends in a semicolon. -/
theorem parse_append (limit : Nat) {first second : List Token}
    (hfirst : ∀ t ∈ first, t.isEnd = false) (hsecond : ∀ t ∈ second, t.isEnd = false)
    (helse : ∀ t ∈ second.head?, t.kind ≠ .kwElse)
    (hlocal : (parse first limit).reports = [] ∨
      (∀ t ∈ first, t.kind ≠ .leftBrace ∧ t.kind ≠ .rightBrace) ∧
        ∃ t, first.getLast? = some t ∧ t.kind = .semicolon) :
    parse (first ++ second) limit =
      ⟨(parse first limit).stmts ++ (parse second limit).stmts,
        (parse first limit).reports ++ (parse second limit).reports⟩ := by
  by_cases hne : second = []
  · subst hne
    have hempty : parse [] limit = ⟨[], []⟩ := rfl
    rw [hempty, List.append_nil, List.append_nil, List.append_nil]
  · -- The first text is parsed in the context of the second, and the second in that of the reports
    -- on the first.
    have hboth : ∀ t ∈ first ++ second, t.isEnd = false := fun t ht =>
      (List.mem_append.mp ht).elim (hfirst t) (hsecond t)
    have hmark := endMark_append hfirst hne
    let k : Context := ⟨second, endMark second, [], endMark_isEnd second⟩
    have hend := endMark_isEnd first
    have hk : k.Detached := helse
    have hinto : start (first ++ second) = (start first).into k := by
      rw [start_of_no_mark hboth, start_of_no_mark hfirst, hmark]
      rfl
    have hrun : program limit ((start first).into k) =
        ((program limit (start first)).1 ++
          (program limit ((program limit (start first)).2.into k)).1,
          (program limit ((program limit (start first)).2.into k)).2) := by
      rcases hlocal with hquiet | ⟨hbrace, t, hlast, ht⟩
      · refine program_into limit k (fun c hc => sameIn_of_quiet hk hc) ?_ hend
        exact List.reverse_eq_nil_iff.mp hquiet
      · refine program_into limit k (fun c hc => sameIn_of_simple hk hc) ?_ hend
        rw [start_of_no_mark hfirst]
        exact ⟨fun t ht => (hbrace t ht).1, fun _ => ⟨t, hlast, ht⟩⟩
    let k' : Context := ⟨[], endMark second, (program limit (start first)).2.reports,
      endMark_isEnd second⟩
    have hbehind : (program limit (start first)).2.into k = (start second).into k' := by
      have hrest := program_rest limit (c := start first) hend
      rw [start_of_no_mark hsecond]
      simp [Cursor.into, k, k', hrest]
    have hlater := program_earlier limit (k := k') (c := start second) (endMark_isEnd second)
      rfl rfl
    rw [parse_eq, parse_eq, parse_eq, hinto, hrun, hbehind, hlater]
    simp [Cursor.into, k']

/-- In `let ; x;`, the error in `let ;` leaves `x;` alone. -/
theorem malformed_then_sound :
    let t (kind : TokenKind) : Token := ⟨kind, [], .null, 1⟩
    parse ([t .kwLet, t .semicolon] ++ [t .identifier, t .semicolon]) 10 =
      ⟨(parse [t .kwLet, t .semicolon] 10).stmts ++
          (parse [t .identifier, t .semicolon] 10).stmts,
        (parse [t .kwLet, t .semicolon] 10).reports ++
          (parse [t .identifier, t .semicolon] 10).reports⟩ := by
  intro t
  exact parse_append 10 (by decide) (by decide) (by simp [t])
    (.inr ⟨by decide, t .semicolon, rfl, rfl⟩)

end Parse

end Scribe
