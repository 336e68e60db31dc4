import Scribe.Proofs.Parse.Progress

/-!
# Parsing in a longer text

A run that stops before the end of its text does the same in every text that continues it. What a
production reports, and what was reported before, does not matter to it either.
-/

namespace Scribe

namespace Parse

/-- What a text is placed into: the tokens behind it, the end mark behind those, and the reports
made before it. -/
structure Context where
  behind : List Token
  finish : Token
  earlier : List Diagnostic
  isEnd : finish.isEnd

def Cursor.into (c : Cursor) (k : Context) : Cursor :=
  ⟨c.rest ++ k.behind, k.finish, c.reports ++ k.earlier⟩

def Run.into (k : Context) : Run α → Run α
  | .ok a c => .ok a (c.into k)
  | .error e c => .error e (c.into k)

/-- From this cursor, the context cannot be seen: a token stands before it, or it is no longer a
text. -/
def Context.Unseen (k : Context) (c : Cursor) : Prop :=
  c.rest ≠ [] ∨ (k.behind = [] ∧ k.finish = c.finish)

namespace Context

variable {k : Context} {c c' : Cursor}

theorem Unseen.of_ahead {taken : TokenKind → Prop} (h : k.Unseen c') (hahead : Ahead taken c c') :
    k.Unseen c := by
  rcases h with h | ⟨hbehind, hfinish⟩
  · obtain ⟨used, hused, -⟩ := hahead.passed
    exact .inl (by simp [hused, h])
  · exact .inr ⟨hbehind, hfinish.trans hahead.finish⟩

theorem Unseen.peek (h : k.Unseen c) : (c.into k).peek = c.peek := by
  cases hrest : c.rest with
  | nil =>
      rcases h with h | ⟨hbehind, hfinish⟩
      · exact absurd hrest h
      · simp [Cursor.peek, Cursor.into, hrest, hbehind, hfinish]
  | cons t rest => simp [Cursor.peek, Cursor.into, hrest]

end Context

theorem into_of_cons {k : Context} {c : Cursor} {t : Token} {rest : List Token}
    (h : c.rest = t :: rest) : (c.into k).rest = t :: (rest ++ k.behind) := by
  simp [Cursor.into, h]

theorem accept_into {kinds : TokenKind → Bool} {k : Context} {c : Cursor}
    (h : c.rest = [] → ∀ t ∈ k.behind.head?, kinds t.kind = false) :
    accept kinds (c.into k) = Run.into k (accept kinds c) := by
  cases hrest : c.rest with
  | cons t rest =>
      rw [accept_of_cons kinds hrest, accept_of_cons kinds (into_of_cons hrest)]
      split <;> rfl
  | nil =>
      rw [accept_of_nil kinds hrest]
      rcases accept_cases kinds (c.into k) with ⟨t, rest, hk, ht, -⟩ | ⟨-, hacc⟩
      · have hbehind : k.behind = t :: rest := by simpa [Cursor.into, hrest] using hk
        rw [h hrest t (by simp [hbehind])] at ht
        cases ht
      · exact hacc

/-- A run from `c` that stops before the context does not depend on it. -/
structure Local (p : Production α) (c : Cursor) : Prop where
  advances : Advances anything p c
  same : ∀ k : Context, k.Unseen (reached (p c)) → p (c.into k) = Run.into k (p c)

namespace Local

variable {c : Cursor}

theorem of_ok {p : Production α} {c' : Cursor} {a : α} (h : Local p c) (hrun : p c = .ok a c')
    {k : Context} (hk : k.Unseen c') : p (c.into k) = .ok a (c'.into k) := by
  have hsame := h.same k (by rw [hrun]; exact hk)
  rw [hsame, hrun]
  rfl

theorem of_error {p : Production α} {c' : Cursor} {e : Fault} (h : Local p c)
    (hrun : p c = .error e c') {k : Context} (hk : k.Unseen c') :
    p (c.into k) = .error e (c'.into k) := by
  have hsame := h.same k (by rw [hrun]; exact hk)
  rw [hsame, hrun]
  rfl

theorem bind {p : Production α} {f : α → Production β} (hp : Local p c)
    (hf : ∀ a c', p c = .ok a c' → c'.finish = c.finish → Local (f a) c') :
    Local (p >>= f) c := by
  refine ⟨hp.advances.bind fun a c' hrun hfinish => (hf a c' hrun hfinish).advances, ?_⟩
  intro k hk
  cases hrun : p c with
  | ok a c' =>
      have hfinish := (hp.advances.ahead_of_ok hrun).finish
      have hfa := hf a c' hrun hfinish
      rw [bind_of_ok hrun] at hk ⊢
      rw [bind_of_ok (hp.of_ok hrun (hk.of_ahead hfa.advances.ahead))]
      exact hfa.same k hk
  | error e c' =>
      rw [bind_of_error hrun] at hk ⊢
      rw [bind_of_error (hp.of_error hrun hk)]
      rfl

theorem congr {p q : Production α} (h : Local q c) (hpq : p c = q c)
    (hinto : ∀ k : Context, k.Unseen c → p (c.into k) = q (c.into k)) : Local p c := by
  refine ⟨⟨hpq ▸ h.advances.ahead, hpq ▸ h.advances.unwinding⟩, ?_⟩
  intro k hk
  rw [hpq] at hk ⊢
  rw [hinto k (hk.of_ahead h.advances.ahead)]
  exact h.same k hk

theorem pure (a : α) (c : Cursor) : Local (pure a) c :=
  ⟨.of_ok rfl (.refl anything c), fun _ _ => rfl⟩

theorem look {f : Token → Production α} (h : Local (f c.peek) c) : Local (peek >>= f) c :=
  h.congr (peek_bind f c) fun k hk => by rw [peek_bind, hk.peek]

theorem fail (cause : SyntaxCause) (c : Cursor) : Local (fail cause : Production α) c := by
  refine ⟨.of_failed rfl (.refl anything c), ?_⟩
  intro k (hk : k.Unseen c)
  show EStateM.Result.error (Fault.failed (Diagnostic.syntactic (c.into k).peek cause)) _ = _
  rw [hk.peek]
  rfl

theorem accept (kinds : TokenKind → Bool) (c : Cursor) : Local (accept kinds) c := by
  have hadv : Advances anything (Parse.accept kinds) c := .accept (fun _ _ => trivial) c
  refine ⟨hadv, fun k hk => accept_into ?_⟩
  intro hrest
  rcases hk.of_ahead hadv.ahead with h | ⟨hbehind, -⟩
  · exact absurd hrest h
  · simp [hbehind]

theorem expect (kind : TokenKind) (cause : SyntaxCause) (c : Cursor) :
    Local (expect kind cause) c := by
  have hadv : Advances anything (Parse.expect kind cause) c := .expect trivial cause c
  refine ⟨hadv, fun k hk => ?_⟩
  cases hrest : c.rest with
  | nil =>
      rcases hk.of_ahead hadv.ahead with h | ⟨hbehind, hfinish⟩
      · exact absurd hrest h
      · have hinto : (c.into k).rest = [] := by simp [Cursor.into, hrest, hbehind]
        rw [expect_of_nil kind cause hrest, expect_of_nil kind cause hinto]
        show EStateM.Result.error (Fault.failed (Diagnostic.syntactic k.finish cause)) _ = _
        rw [hfinish]
        rfl
  | cons t rest =>
      rw [expect_of_cons kind cause hrest, expect_of_cons kind cause (into_of_cons hrest)]
      split <;> rfl

end Local

theorem elements_local (n : Nat) (bracket : Token)
    (h : ∀ c, c.finish.isEnd → Local (expression n) c) (c : Cursor) (hend : c.finish.isEnd) :
    Local (elements n bracket) c := by
  induction hlen : c.rest.length using Nat.strongRecOn generalizing c with
  | ind len ih =>
      refine Local.congr ?_ (elements_eq n bracket hend)
        fun k _ => elements_eq n bracket (c := c.into k) k.isEnd
      refine (h c hend).bind ?_
      intro e c₁ hitem hf₁
      have hshort := expression_consumes n c e c₁ hend hitem
      have hcomma := Local.accept (· == .comma) c₁
      refine hcomma.bind ?_
      intro found c₂ hacc hf₂
      have hlen₂ := (hcomma.advances.ahead_of_ok hacc).rest_length
      cases found with
      | none => exact .pure [e] c₂
      | some t =>
          have hmore := ih c₂.rest.length (by omega) c₂ (hf₂ ▸ hf₁ ▸ hend) rfl
          exact hmore.bind fun es d _ _ => .pure (e :: es) d

/-! ## Statement boundaries -/

theorem boundaryAfter_append {last : Token} {rest : List Token} (behind : List Token)
    (h : boundaryAfter last rest ≠ []) :
    boundaryAfter last (rest ++ behind) = boundaryAfter last rest ++ behind := by
  induction rest generalizing last with
  | nil => exact absurd rfl h
  | cons t rest ih =>
      rw [List.cons_append]
      unfold boundaryAfter at h ⊢
      split at h
      · next hstop => rw [if_pos hstop, if_pos hstop, List.cons_append]
      · next hgo =>
        rw [if_neg hgo, if_neg hgo]
        exact ih h

theorem synchronize_of_cons {c : Cursor} {t : Token} {rest : List Token} (h : c.rest = t :: rest) :
    synchronize c = { c with rest := boundaryAfter t rest } := by
  simp [synchronize, h]

theorem synchronize_into {k : Context} {c : Cursor} (h : k.Unseen (synchronize c)) :
    synchronize (c.into k) = (synchronize c).into k := by
  cases hrest : c.rest with
  | nil =>
      have hsame : synchronize c = c := by simp [synchronize, hrest]
      rw [hsame] at h ⊢
      rcases h with h | ⟨hbehind, -⟩
      · exact absurd hrest h
      · simp [synchronize, Cursor.into, hrest, hbehind]
  | cons t rest =>
      rw [synchronize_of_cons hrest] at h ⊢
      rw [synchronize_of_cons (into_of_cons hrest)]
      rcases h with h | ⟨hbehind, -⟩
      · rw [boundaryAfter_append k.behind h]
        rfl
      · simp [Cursor.into, hbehind]

theorem inner_local {body : Production Stmt} {c : Cursor} (h : Local body c) :
    Local (inner body) c := by
  refine ⟨h.advances.inner, ?_⟩
  intro k hk
  cases hbody : body c with
  | ok s d =>
      rw [inner_of_ok hbody] at hk ⊢
      exact inner_of_ok (h.of_ok hbody hk)
  | error e d =>
      cases e with
      | failed diag =>
          rw [inner_of_failed hbody] at hk ⊢
          have hd : k.Unseen (d.report diag) := hk.of_ahead (synchronize_ahead _)
          rw [inner_of_failed (h.of_error hbody hd)]
          show EStateM.Result.ok none (synchronize ((d.report diag).into k)) = _
          rw [synchronize_into hk]
          rfl
      | tooDeep diag =>
          rw [inner_of_tooDeep hbody] at hk ⊢
          rw [inner_of_tooDeep (h.of_error hbody hk)]
          rfl
      | unwinding =>
          rw [inner_of_unwinding hbody] at hk ⊢
          rw [inner_of_unwinding (h.of_error hbody hk)]
          rfl

theorem items_local (n : Nat) (h : ∀ c, c.finish.isEnd → Local (declaration n) c) (c : Cursor)
    (hend : c.finish.isEnd) : Local (items n) c := by
  induction hlen : c.rest.length using Nat.strongRecOn generalizing c with
  | ind len ih =>
      cases hclose : closes c.peek with
      | true =>
          refine (Local.pure [] c).congr (items_of_closes n hclose) ?_
          intro k hk
          exact items_of_closes n (by rw [hk.peek, hclose])
      | false =>
          have hne := rest_ne_nil_of_not_closes hend hclose
          refine Local.congr ?_ (items_of_not_closes n hend hclose) ?_
          · refine (inner_local (h c hend)).bind ?_
            intro found c' hitem hf
            have hshort := inner_consumes n hend hne hitem
            have hmore := ih c'.rest.length (by omega) c' (hf ▸ hend) rfl
            cases found with
            | none => exact hmore
            | some s => exact hmore.bind fun ss d _ _ => .pure (s :: ss) d
          · intro k hk
            exact items_of_not_closes n (c := c.into k) k.isEnd (by rw [hk.peek, hclose])

theorem statement_zero_local (c : Cursor) : Local (statement 0) c := by
  refine ⟨⟨.refl anything c, fun c' hc => by cases hc⟩, ?_⟩
  intro k (hk : k.Unseen c)
  show EStateM.Result.error (Fault.tooDeep (Diagnostic.syntactic (c.into k).peek _)) _ = _
  rw [hk.peek]
  rfl

theorem advance_local {c : Cursor} {t : Token} {rest : List Token} (h : c.rest = t :: rest) :
    Local advance c := by
  refine ⟨.of_ok rfl (by rw [h]; exact .take h trivial), ?_⟩
  intro k _
  show EStateM.Result.ok () { c.into k with rest := (c.into k).rest.tail } = _
  rw [into_of_cons h]
  simp [advance, Run.into, h, Cursor.into]

theorem local_stableThroughout : StableThroughout fun p c => Local p c where
  pure := .pure
  bind := .bind
  look := .look
  fail := .fail
  report d c := ⟨.of_ok rfl (.report anything c d), fun _ _ => rfl⟩
  advance hrest _ := advance_local hrest
  accept c _ := .accept _ c
  expect cause c _ := .expect _ cause c
  elements n bracket c h hend := elements_local n bracket h c hend
  expectAny kind cause c := .expect kind cause c
  tooDeep := statement_zero_local
  items n c h hend := items_local n h c hend

theorem expression_local (n : Nat) (c : Cursor) (hend : c.finish.isEnd) : Local (expression n) c :=
  local_stableThroughout.expression n c hend

theorem declaration_local (n : Nat) (c : Cursor) (hend : c.finish.isEnd) :
    Local (declaration n) c :=
  local_stableThroughout.declaration (local_stableThroughout.statement n) c hend

end Parse

end Scribe
