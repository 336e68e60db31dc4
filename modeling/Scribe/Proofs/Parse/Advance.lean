import Scribe.Proofs.Parse.Stable

/-!
# How far productions advance

No token is put back, no report is taken back, and the end mark stays. Expressions moreover never
take a semicolon, so an expression that goes wrong stops before the end of its statement.
-/

namespace Scribe

namespace Parse

/-- `c'` lies ahead of `c`: the tokens passed are of the categories `taken`, the end mark is the
same, and reports were only added. -/
structure Ahead (taken : TokenKind → Prop) (c c' : Cursor) : Prop where
  passed : ∃ used, c.rest = used ++ c'.rest ∧ ∀ t ∈ used, taken t.kind
  finish : c'.finish = c.finish
  reports : ∃ new, c'.reports = new ++ c.reports

namespace Ahead

variable {taken : TokenKind → Prop} {c c' c'' : Cursor}

theorem refl (taken : TokenKind → Prop) (c : Cursor) : Ahead taken c c :=
  ⟨⟨[], rfl, by simp⟩, rfl, ⟨[], rfl⟩⟩

theorem trans (h : Ahead taken c c') (h' : Ahead taken c' c'') : Ahead taken c c'' := by
  obtain ⟨used, hused, htaken⟩ := h.passed
  obtain ⟨used', hused', htaken'⟩ := h'.passed
  obtain ⟨new, hnew⟩ := h.reports
  obtain ⟨new', hnew'⟩ := h'.reports
  refine ⟨⟨used ++ used', by rw [hused, hused', List.append_assoc], ?_⟩,
    h'.finish.trans h.finish, ⟨new' ++ new, by rw [hnew', hnew, List.append_assoc]⟩⟩
  intro t ht
  rcases List.mem_append.mp ht with ht | ht
  · exact htaken t ht
  · exact htaken' t ht

theorem take {t : Token} {rest : List Token} (h : c.rest = t :: rest) (ht : taken t.kind) :
    Ahead taken c { c with rest } := by
  refine ⟨⟨[t], h, ?_⟩, rfl, ⟨[], rfl⟩⟩
  intro u hu
  rw [List.mem_singleton.mp hu]
  exact ht

theorem report (taken : TokenKind → Prop) (c : Cursor) (d : Diagnostic) :
    Ahead taken c (c.report d) :=
  ⟨⟨[], rfl, by simp⟩, rfl, ⟨[d], rfl⟩⟩

theorem rest_length (h : Ahead taken c c') : c'.rest.length ≤ c.rest.length := by
  obtain ⟨used, hused, -⟩ := h.passed
  rw [hused, List.length_append]
  omega

theorem reports_length (h : Ahead taken c c') : c.reports.length ≤ c'.reports.length := by
  obtain ⟨new, hnew⟩ := h.reports
  rw [hnew, List.length_append]
  omega

/-- A run that reports nothing on the whole reports nothing on either part. -/
theorem quiet (h : Ahead taken c c') (h' : Ahead taken c' c'') (hq : c''.reports = c.reports) :
    c'.reports = c.reports ∧ c''.reports = c'.reports := by
  obtain ⟨new, hnew⟩ := h.reports
  obtain ⟨new', hnew'⟩ := h'.reports
  have hlen : new'.length + (new.length + c.reports.length) = c.reports.length := by
    rw [← List.length_append, ← hnew, ← List.length_append, ← hnew', hq]
  have hnil : new = [] := List.length_eq_zero_iff.mp (by omega)
  subst hnil
  exact ⟨hnew, hq.trans hnew.symm⟩

end Ahead

/-- A run stops ahead of where it started, and unwinds only after a report. -/
structure Advances (taken : TokenKind → Prop) (p : Production α) (c : Cursor) : Prop where
  ahead : Ahead taken c (reached (p c))
  unwinding : ∀ c', p c = .error .unwinding c' → c.reports.length < c'.reports.length

namespace Advances

variable {taken : TokenKind → Prop} {c : Cursor}

theorem of_ok {p : Production α} {a : α} {c' : Cursor} (h : p c = .ok a c')
    (hahead : Ahead taken c c') : Advances taken p c :=
  ⟨by rw [h]; exact hahead, fun c'' hc => by rw [h] at hc; cases hc⟩

theorem of_failed {p : Production α} {d : Diagnostic} {c' : Cursor}
    (h : p c = .error (.failed d) c') (hahead : Ahead taken c c') : Advances taken p c :=
  ⟨by rw [h]; exact hahead, fun c'' hc => by rw [h] at hc; cases hc⟩

theorem bind {p : Production α} {f : α → Production β} (hp : Advances taken p c)
    (hf : ∀ a c', p c = .ok a c' → c'.finish = c.finish → Advances taken (f a) c') :
    Advances taken (p >>= f) c := by
  cases h : p c with
  | ok a c' =>
      have hahead : Ahead taken c c' := by simpa [h] using hp.ahead
      have hfa := hf a c' h hahead.finish
      constructor
      · rw [bind_of_ok h]
        exact hahead.trans hfa.ahead
      · intro c'' hc
        rw [bind_of_ok h] at hc
        exact Nat.lt_of_le_of_lt hahead.reports_length (hfa.unwinding c'' hc)
  | error e c' =>
      constructor
      · rw [bind_of_error h]
        simpa [h] using hp.ahead
      · intro c'' hc
        rw [bind_of_error h] at hc
        exact hp.unwinding c'' (h.trans (by cases hc; rfl))

theorem accept {kinds : TokenKind → Bool} (hk : ∀ kind, kinds kind = true → taken kind)
    (c : Cursor) : Advances taken (accept kinds) c := by
  rcases accept_cases kinds c with ⟨t, rest, hrest, ht, hacc⟩ | ⟨-, hacc⟩
  · exact of_ok hacc (.take hrest (hk _ ht))
  · exact of_ok hacc (.refl taken c)

theorem expect {kind : TokenKind} (hk : taken kind) (cause : SyntaxCause) (c : Cursor) :
    Advances taken (expect kind cause) c := by
  cases h : c.rest with
  | nil => exact of_failed (expect_of_nil kind cause h) (.refl taken c)
  | cons t rest =>
      have hexp := expect_of_cons kind cause h
      by_cases ht : t.kind = kind
      · rw [if_pos ht] at hexp
        exact of_ok hexp (.take h (ht ▸ hk))
      · rw [if_neg ht] at hexp
        exact of_failed hexp (.refl taken c)

theorem commaSeparated {item : Production α} (hcomma : taken .comma)
    (hitem : ∀ c, c.finish.isEnd → Advances taken item c) (budget : List Token) (done : List α)
    (c : Cursor) (hend : c.finish.isEnd) : Advances taken (commaSeparated item budget done) c := by
  induction budget generalizing done c with
  | nil => exact of_ok rfl (.refl taken c)
  | cons b budget ih =>
      refine (hitem c hend).bind ?_
      intro a c₁ _ hf₁
      refine (accept (by simpa using hcomma) c₁).bind ?_
      intro found c₂ _ hf₂
      cases found with
      | none => exact of_ok rfl (.refl taken c₂)
      | some _ => exact ih (a :: done) c₂ (hf₂ ▸ hf₁ ▸ hend)

end Advances

/-- Productions of expressions advance, and no semicolon is taken on the way. -/
theorem advances_stable {taken : TokenKind → Prop} (h : ∀ kind, kind ≠ .semicolon → taken kind) :
    Stable fun p c => Advances taken p c where
  pure a c := .of_ok rfl (.refl taken c)
  bind hp hf := hp.bind hf
  look hf := ⟨hf.ahead, hf.unwinding⟩
  fail cause c := .of_failed rfl (.refl taken c)
  report d c := .of_ok rfl (.report taken c d)
  advance hrest ht := .of_ok rfl (by rw [hrest]; exact .take hrest (h _ ht))
  accept c hk := .accept (fun kind hkind => h kind (by rintro rfl; rw [hk] at hkind; cases hkind)) c
  expect cause c hk := .expect (h _ hk) cause c
  elements n bracket c hexpr hend := by
    have hlist := Advances.commaSeparated (h .comma (by decide)) hexpr (bracket :: c.rest) [] c hend
    exact ⟨hlist.ahead, hlist.unwinding⟩

def anything : TokenKind → Prop := fun _ => True

theorem boundaryAfter_suffix (last : Token) (rest : List Token) :
    ∃ skipped, rest = skipped ++ boundaryAfter last rest := by
  induction rest generalizing last with
  | nil => exact ⟨[], rfl⟩
  | cons t rest ih =>
      unfold boundaryAfter
      split
      · exact ⟨[], rfl⟩
      · obtain ⟨skipped, hskipped⟩ := ih t
        exact ⟨t :: skipped, by rw [List.cons_append, ← hskipped]⟩

theorem synchronize_ahead (c : Cursor) : Ahead anything c (synchronize c) := by
  unfold synchronize
  split
  · exact .refl anything c
  · next t rest hrest =>
    obtain ⟨skipped, hskipped⟩ := boundaryAfter_suffix t rest
    exact ⟨⟨t :: skipped, by rw [hrest, List.cons_append, ← hskipped], fun _ _ => trivial⟩, rfl,
      ⟨[], rfl⟩⟩

theorem synchronize_reports (c : Cursor) : (synchronize c).reports = c.reports := by
  unfold synchronize
  split <;> rfl

theorem synchronize_shrinks (c : Cursor) (h : c.rest ≠ []) :
    (synchronize c).rest.length < c.rest.length := by
  unfold synchronize
  split
  · next hrest => exact absurd hrest h
  · next t rest hrest =>
    obtain ⟨skipped, hskipped⟩ := boundaryAfter_suffix t rest
    have hlen := congrArg List.length hskipped
    rw [List.length_append] at hlen
    rw [hrest, List.length_cons]
    show (boundaryAfter t rest).length < rest.length + 1
    omega

namespace Advances

variable {c : Cursor}

theorem inner {body : Production Stmt} (h : Advances anything body c) :
    Advances anything (inner body) c := by
  have hahead := h.ahead
  cases hbody : body c with
  | ok s c' =>
      rw [hbody] at hahead
      exact of_ok (inner_of_ok hbody) hahead
  | error e c' =>
      rw [hbody] at hahead
      cases e with
      | failed d =>
          have hskip := (Ahead.report anything c' d).trans (synchronize_ahead _)
          exact of_ok (inner_of_failed hbody) (hahead.trans hskip)
      | tooDeep d =>
          have hrun := inner_of_tooDeep hbody
          refine ⟨by rw [hrun]; exact hahead.trans (.report anything c' d), ?_⟩
          intro c'' hc
          rw [hrun] at hc
          cases hc
          exact Nat.lt_succ_of_le hahead.reports_length
      | unwinding =>
          have hrun := inner_of_unwinding hbody
          refine ⟨by rw [hrun]; exact hahead, ?_⟩
          intro c'' hc
          rw [hrun] at hc
          cases hc
          exact h.unwinding c' hbody

theorem blockItems {item : Production (Option Stmt)}
    (hitem : ∀ c, c.finish.isEnd → Advances anything item c) (budget : List Token)
    (done : List Stmt) (c : Cursor) (hend : c.finish.isEnd) :
    Advances anything (blockItems item budget done) c := by
  induction budget generalizing done c with
  | nil => exact of_ok rfl (.refl anything c)
  | cons b budget ih =>
      have hgo : Advances anything (item >>= kept item budget done) c := by
        refine (hitem c hend).bind ?_
        intro found c' _ hf
        cases found with
        | none => exact ih done c' (hf ▸ hend)
        | some s => exact ih (s :: done) c' (hf ▸ hend)
      rw [blockItems_cons]
      by_cases hstop : closes c.peek = true
      · exact of_ok (by rw [peek_bind, if_pos hstop, pure_apply]) (.refl anything c)
      · have hrun : (peek >>= fun t => if closes t then pure done.reverse
            else item >>= kept item budget done) c = (item >>= kept item budget done) c := by
          rw [peek_bind, if_neg hstop]
        exact ⟨by rw [hrun]; exact hgo.ahead, by rw [hrun]; exact hgo.unwinding⟩

end Advances

theorem advances_stableThroughout : StableThroughout fun p c => Advances anything p c where
  toStable := advances_stable fun _ _ => trivial
  expectAny kind cause c := .expect trivial cause c
  tooDeep c := ⟨.refl anything c, fun c' hc => by cases hc⟩
  items n c hbody hend := by
    have hlist := Advances.blockItems (fun c hend => (hbody c hend).inner) c.rest [] c hend
    exact ⟨hlist.ahead, hlist.unwinding⟩

def notSemicolon : TokenKind → Prop := fun kind => kind ≠ .semicolon

theorem onExpressions_advances (n : Nat) :
    OnExpressions (fun p c => Advances notSemicolon p c) n :=
  (advances_stable fun _ h => h).onExpressions n

theorem expression_advances (n : Nat) (c : Cursor) (hend : c.finish.isEnd) :
    Advances notSemicolon (expression n) c :=
  (onExpressions_advances n).expression c hend

theorem statement_advances (n : Nat) (c : Cursor) (hend : c.finish.isEnd) :
    Advances anything (statement n) c :=
  advances_stableThroughout.statement n c hend

theorem declaration_advances (n : Nat) (c : Cursor) (hend : c.finish.isEnd) :
    Advances anything (declaration n) c :=
  advances_stableThroughout.declaration (statement_advances n) c hend

theorem Advances.ahead_of_ok {taken : TokenKind → Prop} {p : Production α} {c c' : Cursor} {a : α}
    (hp : Advances taken p c) (h : p c = .ok a c') : Ahead taken c c' := by
  simpa [h] using hp.ahead

theorem Advances.ahead_of_error {taken : TokenKind → Prop} {p : Production α} {c c' : Cursor}
    {e : Fault} (hp : Advances taken p c) (h : p c = .error e c') : Ahead taken c c' := by
  simpa [h] using hp.ahead

end Parse

end Scribe
