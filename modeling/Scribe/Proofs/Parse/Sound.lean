import Scribe.Proofs.Parse.Grammar
import Scribe.Proofs.Parse.Progress

/-!
# What is parsed is derivable

A production that succeeds without a report has read a derivation of its result. The statement is
carried through sequences by `Yields`, which speaks of the tokens taken, the result, and the
tokens left.
-/

namespace Scribe

namespace Parse

open Grammar

/-- Whatever the production returns from `c` is a result of the tokens taken, provided nothing was
reported. `Q` is given the tokens taken, the result and the tokens left. -/
def Yields (p : Production α) (Q : List Token → α → List Token → Prop) (c : Cursor) : Prop :=
  ∀ a c', p c = .ok a c' → ∃ ts new, c.rest = ts ++ c'.rest ∧ c'.finish = c.finish ∧
    c'.reports = new ++ c.reports ∧ (new = [] → Q ts a c'.rest)

namespace Yields

variable {c : Cursor}

theorem weaken {p : Production α} {Q R : List Token → α → List Token → Prop} (h : Yields p Q c)
    (hQR : ∀ ts a rest, Q ts a rest → R ts a rest) : Yields p R c := by
  intro a c' hrun
  obtain ⟨ts, new, hrest, hfinish, hreports, hQ⟩ := h a c' hrun
  exact ⟨ts, new, hrest, hfinish, hreports, fun hnew => hQR _ _ _ (hQ hnew)⟩

theorem congr {p q : Production α} {Q : List Token → α → List Token → Prop} (h : Yields q Q c)
    (hpq : p c = q c) : Yields p Q c := by
  intro a c' hrun
  exact h a c' (hpq ▸ hrun)

theorem bind {p : Production α} {f : α → Production β} {Q : List Token → α → List Token → Prop}
    {R : α → List Token → β → List Token → Prop} (hp : Yields p Q c)
    (hf : ∀ a c', p c = .ok a c' → c'.finish = c.finish → Yields (f a) (R a) c') :
    Yields (p >>= f)
      (fun ts b rest => ∃ a us vs, ts = us ++ vs ∧ Q us a (vs ++ rest) ∧ R a vs b rest) c := by
  intro b c'' hrun
  obtain ⟨a, c', hpa, hfa⟩ := bind_eq_ok.mp hrun
  obtain ⟨us, new, hrest, hfinish, hreports, hQ⟩ := hp a c' hpa
  obtain ⟨vs, new', hrest', hfinish', hreports', hR⟩ := hf a c' hpa hfinish b c'' hfa
  refine ⟨us ++ vs, new' ++ new, ?_, hfinish'.trans hfinish, ?_, ?_⟩
  · rw [hrest, hrest', List.append_assoc]
  · rw [hreports', hreports, List.append_assoc]
  · intro hnew
    obtain ⟨hnew', hnew⟩ := List.append_eq_nil_iff.mp hnew
    exact ⟨a, us, vs, rfl, hrest' ▸ hQ hnew, hR hnew'⟩

theorem pure (a : α) (c : Cursor) :
    Yields (pure a : Production α) (fun ts b _ => ts = [] ∧ b = a) c := by
  intro b c' hrun
  cases hrun
  exact ⟨[], [], rfl, rfl, rfl, fun _ => ⟨rfl, rfl⟩⟩

theorem fail (cause : SyntaxCause) (Q : List Token → α → List Token → Prop) (c : Cursor) :
    Yields (fail cause : Production α) Q c := by
  intro a c' hrun
  cases hrun

theorem report (d : Diagnostic) (Q : List Token → Unit → List Token → Prop) (c : Cursor) :
    Yields (report d) Q c := by
  intro a c' hrun
  cases hrun
  exact ⟨[], [d], rfl, rfl, rfl, fun h => by cases h⟩

/-- A token is accepted or left, and the production goes on accordingly. -/
theorem optional {kinds : TokenKind → Bool} {f : Option Token → Production α}
    {Q : List Token → α → List Token → Prop}
    (hleft : Yields (f none) (fun ts a rest =>
      (∀ t ∈ (ts ++ rest).head?, kinds t.kind = false) → Q ts a rest) c)
    (htaken : ∀ t rest, c.rest = t :: rest → kinds t.kind = true →
      Yields (f (some t)) (fun ts => Q (t :: ts)) { c with rest }) :
    Yields (accept kinds >>= f) Q c := by
  intro a c' hrun
  rcases accept_cases kinds c with ⟨t, rest, hrest, hk, hacc⟩ | ⟨hhead, hacc⟩
  · rw [bind_of_ok hacc] at hrun
    obtain ⟨ts, new, hts, hfinish, hreports, hQ⟩ := htaken t rest hrest hk a c' hrun
    refine ⟨t :: ts, new, ?_, hfinish, hreports, hQ⟩
    rw [hrest, List.cons_append, ← hts]
  · rw [bind_of_ok hacc] at hrun
    obtain ⟨ts, new, hts, hfinish, hreports, hQ⟩ := hleft a c' hrun
    exact ⟨ts, new, hts, hfinish, hreports, fun hnew => hQ hnew (hts ▸ hhead)⟩

theorem expect (kind : TokenKind) (cause : SyntaxCause) (c : Cursor) :
    Yields (expect kind cause) (fun ts t _ => ts = [t] ∧ t.kind = kind) c := by
  intro t c' hrun
  obtain ⟨rest, hrest, hk, rfl⟩ := expect_eq_ok.mp hrun
  exact ⟨[t], [], hrest, rfl, rfl, fun _ => ⟨rfl, hk⟩⟩

theorem cons {p q : Production α} {Q : List Token → α → List Token → Prop} {t : Token}
    {rest : List Token} (hrest : c.rest = t :: rest) (h : Yields q Q { c with rest })
    (hpq : p c = q { c with rest }) :
    Yields p (fun ts a left => ∃ us, ts = t :: us ∧ Q us a left) c := by
  intro a c' hrun
  obtain ⟨us, new, hus, hfinish, hreports, hQ⟩ := h a c' (hpq ▸ hrun)
  refine ⟨t :: us, new, ?_, hfinish, hreports, fun hnew => ⟨us, rfl, hQ hnew⟩⟩
  rw [hrest, List.cons_append, ← hus]

end Yields

/-! ## Expressions -/

/-- The tiers lead from one rank to another, each joining what the one before it gives. -/
inductive Climbs : Rank → List Tier → Rank → Prop
  | nil (r : Rank) : Climbs r [] r
  | cons (tier : Tier) {looser : List Tier} {r : Rank} (h : Climbs (.tier tier) looser r) :
      Climbs (operandRank tier) (tier :: looser) r

theorem climbs_all : Climbs .unary Tier.all (.tier .equality) :=
  .cons .factor (.cons .term (.cons .comparison (.cons .equality (.nil _))))

theorem climbs_tighter (tier : Tier) : Climbs .unary tier.tighter (operandRank tier) := by
  cases tier with
  | factor => exact .nil _
  | term => exact .cons .factor (.nil _)
  | comparison => exact .cons .factor (.cons .term (.nil _))
  | equality => exact .cons .factor (.cons .term (.cons .comparison (.nil _)))

/-- With `n` levels left, the productions of expressions yield derivations. A chain continues the
derivation of its left side. -/
structure YieldsExpressions (n : Nat) : Prop where
  expression : ∀ c, c.finish.isEnd →
    Yields (expression n) (fun ts e _ => Expression .expression ts e) c
  operand : ∀ c, c.finish.isEnd → Yields (operand n) (fun ts e _ => Expression .unary ts e) c
  chain : ∀ tier left c, c.finish.isEnd → Yields (chain tier n left) (fun ts e _ =>
    ∀ us, Expression (.tier tier) us left → Expression (.tier tier) (us ++ ts) e) c
  chains : ∀ {r tiers r'}, Climbs r tiers r' → ∀ left c, c.finish.isEnd →
    Yields (chains tiers n left) (fun ts e _ =>
      ∀ us, Expression r us left → Expression r' (us ++ ts) e) c

namespace YieldsExpressions

variable {n : Nat}

theorem climb (h : YieldsExpressions n) {tiers : List Tier} {r : Rank}
    (hclimb : Climbs .unary tiers r) (c : Cursor) (hend : c.finish.isEnd) :
    Yields (climb tiers n) (fun ts e _ => Expression r ts e) c := by
  refine ((h.operand c hend).bind fun first c' _ hf =>
    h.chains hclimb first c' (hf ▸ hend)).weaken ?_
  rintro _ e _ ⟨first, us, vs, rfl, hfirst, hchains⟩
  exact hchains us hfirst

end YieldsExpressions

theorem Yields.map {p : Production α} {Q : List Token → α → List Token → Prop} {c : Cursor}
    (h : Yields p Q c) (f : α → β) :
    Yields (p >>= fun a => Pure.pure (f a)) (fun ts b rest => ∃ a, b = f a ∧ Q ts a rest) c := by
  refine (h.bind fun a c' _ _ => Yields.pure (f a) c').weaken ?_
  rintro _ b rest ⟨a, us, _, rfl, hQ, rfl, rfl⟩
  exact ⟨a, rfl, by simpa using hQ⟩

theorem Yields.closed {p : Production α} {Q : List Token → α → List Token → Prop} {c : Cursor}
    (h : Yields p Q c) (kind : TokenKind) (cause : SyntaxCause) (f : α → β) :
    Yields (do let a ← p; let _ ← Parse.expect kind cause; Pure.pure (f a)) (fun ts b rest =>
      ∃ a us t, ts = us ++ [t] ∧ t.kind = kind ∧ b = f a ∧ Q us a (t :: rest)) c := by
  refine (h.bind fun a c' _ _ =>
    (Yields.expect kind cause c').map fun _ => f a).weaken ?_
  rintro _ b rest ⟨a, us, _, rfl, hQ, t, rfl, rfl, hk⟩
  exact ⟨a, us, t, rfl, hk, rfl, hQ⟩

theorem yields_elements {n : Nat} (bracket : Token) (h : ∀ c, c.finish.isEnd →
    Yields (expression n) (fun ts e _ => Expression .expression ts e) c) (c : Cursor)
    (hend : c.finish.isEnd) : Yields (elements n bracket) (fun ts es _ => Elements ts es) c := by
  induction hlen : c.rest.length using Nat.strongRecOn generalizing c with
  | ind len ih =>
      refine Yields.congr ?_ (elements_eq n bracket hend)
      have hbehind : ∀ e c₁, expression n c = .ok e c₁ → c₁.finish = c.finish →
          Yields (accept (· == .comma) >>= elementsBehind n bracket e) (fun ts es _ =>
            (ts = [] ∧ es = [e]) ∨
            ∃ t us es', ts = t :: us ∧ t.kind = .comma ∧ es = e :: es' ∧ Elements us es') c₁ := by
        intro e c₁ hitem hf₁
        have hshort := expression_consumes n c e c₁ hend hitem
        refine Yields.optional ?_ ?_
        · refine (Yields.pure [e] c₁).weaken ?_
          intro ts es rest hes _
          exact .inl hes
        · intro t rest hrest hk
          have hlen₁ : rest.length < len := by
            rw [hrest, List.length_cons] at hshort
            omega
          refine ((ih rest.length hlen₁ { c₁ with rest } (hf₁ ▸ hend) rfl).map (e :: ·)).weaken ?_
          rintro us _ _ ⟨es', rfl, hes⟩
          exact .inr ⟨t, us, es', rfl, by simpa using hk, rfl, hes⟩
      refine ((h c hend).bind hbehind).weaken ?_
      rintro _ es rest ⟨e, us, _, rfl, he, ⟨rfl, rfl⟩ | ⟨t, vs, es', rfl, hk, rfl, hes⟩⟩
      · simpa using Elements.last he
      · exact Elements.more he hk hes

section Ladder

variable {n : Nat} {c : Cursor}

theorem yields_prefixed (h : ∀ m, m < n → YieldsExpressions m) {op : Token}
    (hop : op.kind = .bang ∨ op.kind = .minus) (hend : c.finish.isEnd) :
    Yields (prefixed n op) (fun ts e _ => Expression .unary (op :: ts) e) c := by
  cases n with
  | zero => exact .fail _ _ c
  | succ m =>
      refine (((h m (Nat.lt_succ_self m)).operand c hend).map (Expr.unary op)).weaken ?_
      rintro ts _ _ ⟨e, rfl, he⟩
      exact .unary hop he

theorem yields_grouped (h : ∀ c, c.finish.isEnd →
    Yields (expression n) (fun ts e _ => Expression .expression ts e) c) {l : Token}
    (hl : l.kind = .leftParen) (hend : c.finish.isEnd) :
    Yields (grouped n) (fun ts e _ => Expression .primary (l :: ts) e) c := by
  refine ((h c hend).closed .rightParen .expectParenAfterExpression id).weaken ?_
  rintro _ _ _ ⟨e, ts, r, rfl, hr, rfl, he⟩
  exact .group hl he hr

theorem yields_listed (h : ∀ c, c.finish.isEnd →
    Yields (expression n) (fun ts e _ => Expression .expression ts e) c) {l : Token}
    (hl : l.kind = .leftBracket) (hend : c.finish.isEnd) :
    Yields (listed n l) (fun ts e _ => Expression .primary (l :: ts) e) c := by
  by_cases hempty : c.peek.kind == .rightBracket
  · have hrun : listed n l c = (advance >>= fun _ => pure (.array l [])) c := by
      rw [listed, peek_bind, if_pos hempty]
    cases hrest : c.rest with
    | nil =>
        rw [Cursor.peek_of_nil hrest] at hempty
        simp only [Token.isEnd, beq_iff_eq] at hend hempty
        rw [hend] at hempty
        cases hempty
    | cons t rest =>
        rw [Cursor.peek_of_cons hrest, beq_iff_eq] at hempty
        rw [advance_bind, hrest, List.tail_cons] at hrun
        refine (Yields.cons hrest (.pure (.array l []) _) hrun).weaken ?_
        rintro _ _ _ ⟨_, rfl, rfl, rfl⟩
        exact .emptyArray hl hempty
  · have hrun : listed n l c = (do
        let es ← elements n l
        let _ ← expect .rightBracket .expectBracketAfterArray
        pure (Expr.array l es)) c := by
      rw [listed, peek_bind, if_neg hempty]
    refine (((yields_elements l h c hend).closed _ _ (Expr.array l)).congr hrun).weaken ?_
    rintro _ _ _ ⟨es, ts, r, rfl, hr, rfl, hes⟩
    exact .array hl hes hr

theorem yields_operand (h : ∀ m, m < n → YieldsExpressions m) (hexpr : ∀ c, c.finish.isEnd →
    Yields (expression n) (fun ts e _ => Expression .expression ts e) c) (hend : c.finish.isEnd) :
    Yields (operand n) (fun ts e _ => Expression .unary ts e) c := by
  cases hrest : c.rest with
  | nil =>
      intro e c' hrun
      rw [operand_of_nil n hrest hend] at hrun
      cases hrun
  | cons t rest =>
      have hrun := operand_of_cons n hrest
      cases hopen : opening t with
      | sign =>
          rw [hopen] at hrun
          refine (Yields.cons hrest (yields_prefixed h (opening_eq_sign.mp hopen) hend)
            hrun).weaken ?_
          rintro _ e _ ⟨us, rfl, he⟩
          exact he
      | constant v =>
          rw [hopen] at hrun
          refine (Yields.cons hrest (.pure (.literal v t.line) _) hrun).weaken ?_
          rintro _ _ _ ⟨_, rfl, rfl, rfl⟩
          exact .primary (.constant (opening_eq_constant.mp hopen))
      | name =>
          rw [hopen] at hrun
          refine (Yields.cons hrest (.pure (.reference t) _) hrun).weaken ?_
          rintro _ _ _ ⟨_, rfl, rfl, rfl⟩
          exact .primary (.name (opening_eq_name.mp hopen))
      | group =>
          rw [hopen] at hrun
          refine (Yields.cons hrest (yields_grouped hexpr (opening_eq_group.mp hopen) hend)
            hrun).weaken ?_
          rintro _ e _ ⟨us, rfl, he⟩
          exact .primary he
      | array =>
          rw [hopen] at hrun
          refine (Yields.cons hrest (yields_listed hexpr (opening_eq_array.mp hopen) hend)
            hrun).weaken ?_
          rintro _ e _ ⟨us, rfl, he⟩
          exact .primary he
      | other =>
          intro e c' hrun'
          rw [hrun, hopen] at hrun'
          cases hrun'

theorem yields_chain (h : ∀ m, m < n → YieldsExpressions m) (tier : Tier) (left : Expr)
    (hend : c.finish.isEnd) : Yields (chain tier n left) (fun ts e _ =>
      ∀ us, Expression (.tier tier) us left → Expression (.tier tier) (us ++ ts) e) c := by
  rw [chain_eq]
  refine Yields.optional ?_ ?_
  · refine (Yields.pure left c).weaken ?_
    rintro _ _ _ ⟨rfl, rfl⟩ _ us hleft
    simpa using hleft
  · intro op rest _ hop
    cases n with
    | zero => exact .fail _ _ _
    | succ m =>
        have hm := h m (Nat.lt_succ_self m)
        refine ((hm.climb (climbs_tighter tier) { c with rest } hend).bind fun right c' _ hf =>
          hm.chain tier (.binary left op right) c' (hf ▸ hend)).weaken ?_
        rintro _ e _ ⟨right, vs, ws, rfl, hright, hchain⟩ us hleft
        simpa using hchain _ (.binary hleft (operators_eq_true.mp hop) hright)

theorem yields_chains (h : ∀ tier left c, c.finish.isEnd → Yields (chain tier n left)
      (fun ts e _ => ∀ us, Expression (.tier tier) us left → Expression (.tier tier) (us ++ ts) e)
      c) {r r' : Rank} {tiers : List Tier} (hclimb : Climbs r tiers r') (left : Expr) (c : Cursor)
    (hend : c.finish.isEnd) : Yields (chains tiers n left) (fun ts e _ =>
      ∀ us, Expression r us left → Expression r' (us ++ ts) e) c := by
  induction hclimb generalizing left c with
  | nil r =>
      rw [chains_nil]
      refine (Yields.pure left c).weaken ?_
      rintro _ _ _ ⟨rfl, rfl⟩ us hleft
      simpa using hleft
  | cons tier _ ih =>
      rw [chains_cons]
      refine ((h tier left c hend).bind fun e c' _ hf => ih e c' (hf ▸ hend)).weaken ?_
      rintro _ e _ ⟨e', us, vs, rfl, hchain, hrest⟩ ws hleft
      rw [← List.append_assoc]
      exact hrest _ (hchain ws (.operand hleft))

theorem yields_assigned (h : YieldsExpressions n) (target : Expr) (hend : c.finish.isEnd) :
    Yields (assigned n target) (fun ts e _ => ∀ us, Expression (.tier .equality) us target →
      Expression .expression (us ++ ts) e) c := by
  refine Yields.optional ?_ ?_
  · refine (Yields.pure target c).weaken ?_
    rintro _ _ _ ⟨rfl, rfl⟩ _ us htarget
    simpa using Expression.equality htarget
  · intro equals rest _ heq
    have hvalue := h.expression { c with rest } hend
    cases target
    case reference name =>
      refine (hvalue.map (Expr.assign name)).weaken ?_
      rintro ts _ _ ⟨value, rfl, hvalue⟩ us htarget
      exact .assign htarget (by simpa using heq) hvalue
    -- Any other target is reported, so there is nothing to show of it.
    all_goals
      refine (hvalue.bind fun _ c' _ _ => (Yields.report _ (fun _ _ _ => False) c').bind
        fun _ d _ _ => .pure _ d).weaken ?_
      rintro _ _ _ ⟨_, _, _, _, _, _, _, _, _, hno, _⟩
      exact hno.elim

theorem yields_expression (h : ∀ m, m < n → YieldsExpressions m) (hend : c.finish.isEnd) :
    Yields (expression n) (fun ts e _ => Expression .expression ts e) c := by
  cases n with
  | zero =>
      rw [expression_zero]
      exact .fail _ _ c
  | succ m =>
      have hm := h m (Nat.lt_succ_self m)
      rw [expression_succ]
      refine ((hm.climb climbs_all c hend).bind fun target c' _ hf =>
        yields_assigned hm target (hf ▸ hend)).weaken ?_
      rintro _ e _ ⟨target, us, vs, rfl, htarget, hassigned⟩
      exact hassigned us htarget

theorem yieldsExpressions (n : Nat) : YieldsExpressions n := by
  induction n using Nat.strongRecOn with
  | ind n ih =>
      have hexpr : ∀ c : Cursor, c.finish.isEnd →
          Yields (expression n) (fun ts e _ => Expression .expression ts e) c :=
        fun _ hend => yields_expression ih hend
      have hchain := fun tier left (c : Cursor) (hend : c.finish.isEnd) =>
        yields_chain ih tier left hend
      exact ⟨hexpr, fun _ hend => yields_operand ih hexpr hend, hchain, yields_chains hchain⟩

end Ladder

/-! ## Statements -/

/-- A derivation of a statement that takes an `else` behind it if it can. -/
def Settled (ts : List Token) (s : Stmt) (rest : List Token) : Prop :=
  Statement ts s ∧ (endsOpen s = true → ∀ t ∈ rest.head?, t.kind ≠ .kwElse)

section Statements

variable {n : Nat} {c : Cursor}

theorem yields_printed {keyword : Token} (hkeyword : keyword.kind = .kwPrint)
    (hend : c.finish.isEnd) :
    Yields (printed n keyword) (fun ts s rest => Settled (keyword :: ts) s rest) c := by
  refine (((yieldsExpressions n).expression c hend).closed _ _ (Stmt.print keyword)).weaken ?_
  rintro _ _ _ ⟨e, ts, t, rfl, hk, rfl, he⟩
  exact ⟨.print hkeyword he hk, by simp [endsOpen]⟩

theorem yields_evaluated (hend : c.finish.isEnd) : Yields (evaluated n) Settled c := by
  refine (((yieldsExpressions n).expression c hend).closed _ _ Stmt.expression).weaken ?_
  rintro _ _ _ ⟨e, ts, t, rfl, hk, rfl, he⟩
  exact ⟨.expression he hk, by simp [endsOpen]⟩

theorem yields_initialized {keyword name : Token}
    (hkeyword : keyword.kind = .kwLet ∨ keyword.kind = .kwVar) (hname : name.kind = .identifier)
    (hend : c.finish.isEnd) : Yields (initialized n name)
      (fun ts s _ => Declaration (keyword :: name :: ts) s) c := by
  refine Yields.optional ?_ ?_
  · refine ((Yields.expect _ _ c).map fun _ => Stmt.declare name .absent).weaken ?_
    rintro _ _ _ ⟨t, rfl, rfl, hk⟩ _
    exact .uninitialized hkeyword hname hk
  · intro equals rest _ heq
    have hinit := (yieldsExpressions n).expression { c with rest } hend
    refine (hinit.closed _ _ (Stmt.declare name)).weaken ?_
    rintro _ _ _ ⟨e, us, t, rfl, hk, rfl, he⟩
    exact .initialized hkeyword hname (by simpa using heq) he hk

theorem yields_declared {keyword : Token}
    (hkeyword : keyword.kind = .kwLet ∨ keyword.kind = .kwVar) (hend : c.finish.isEnd) :
    Yields (declared n) (fun ts s _ => Declaration (keyword :: ts) s) c := by
  rw [declared_eq]
  refine ((Yields.expect _ _ c).bind fun name c' hname hf =>
    have ⟨_, _, hk, _⟩ := expect_eq_ok.mp hname
    yields_initialized hkeyword hk (hf ▸ hend)).weaken ?_
  rintro _ _ _ ⟨name, _, us, rfl, ⟨rfl, -⟩, hs⟩
  exact hs

theorem yields_declaration (h : ∀ c, c.finish.isEnd → Yields (statement n) Settled c)
    (hend : c.finish.isEnd) :
    Yields (declaration n) (fun ts s _ => Declaration ts s) c := by
  have hstmt : Yields (statement n) (fun ts s _ => Declaration ts s) c :=
    (h c hend).weaken fun _ _ _ hs => .statement hs.1
  cases hrest : c.rest with
  | nil => exact hstmt.congr (bind_of_ok (accept_of_nil introduces hrest))
  | cons t rest =>
      have hrun := declaration_of_cons n hrest
      by_cases hk : introduces t.kind = true
      · rw [if_pos hk] at hrun
        refine (Yields.cons hrest (yields_declared (introduces_eq_true.mp hk) hend) hrun).weaken ?_
        rintro _ _ _ ⟨us, rfl, hs⟩
        exact hs
      · rw [if_neg hk] at hrun
        exact hstmt.congr hrun

/-- A declaration of a block that is skipped leaves a report. -/
theorem yields_inner (h : ∀ c, c.finish.isEnd → Yields (statement n) Settled c)
    (hend : c.finish.isEnd) : Yields (inner (declaration n))
      (fun ts found _ => ∃ s, found = some s ∧ Declaration ts s) c := by
  intro found c' hrun
  cases hbody : declaration n c with
  | ok s d =>
      rw [inner_of_ok hbody] at hrun
      cases hrun
      obtain ⟨ts, new, hrest, hfinish, hreports, hs⟩ := yields_declaration h hend s _ hbody
      exact ⟨ts, new, hrest, hfinish, hreports, fun hnew => ⟨s, rfl, hs hnew⟩⟩
  | error e d =>
      have hahead := (declaration_advances n c hend).ahead_of_error hbody
      cases e with
      | failed diag =>
          rw [inner_of_failed hbody] at hrun
          cases hrun
          obtain ⟨new, hnew⟩ := hahead.reports
          have hskip := hahead.trans (abandoned_ahead (.failed diag) d)
          obtain ⟨ts, hts, -⟩ := hskip.passed
          refine ⟨ts, diag :: new, hts, hskip.finish, ?_, fun hno => by cases hno⟩
          rw [synchronize_reports, List.cons_append, ← hnew]
          rfl
      | tooDeep diag =>
          rw [inner_of_tooDeep hbody] at hrun
          cases hrun
      | unwinding =>
          rw [inner_of_unwinding hbody] at hrun
          cases hrun

theorem yields_items (h : ∀ c, c.finish.isEnd → Yields (statement n) Settled c)
    (hend : c.finish.isEnd) : Yields (items n) (fun ts ss _ => Declarations ts ss) c := by
  induction hlen : c.rest.length using Nat.strongRecOn generalizing c with
  | ind len ih =>
      cases hclose : closes c.peek with
      | true =>
          refine ((Yields.pure [] c).congr (items_of_closes n hclose)).weaken ?_
          rintro _ _ _ ⟨rfl, rfl⟩
          exact .nil
      | false =>
          have hne := rest_ne_nil_of_not_closes hend hclose
          refine Yields.congr ?_ (items_of_not_closes n hend hclose)
          refine ((yields_inner h hend).bind (R := fun found ts ss _ =>
            ∃ ss', ss = found.toList ++ ss' ∧ Declarations ts ss') ?_).weaken ?_
          · intro found c' hitem hf
            have hshort := inner_consumes n hend hne hitem
            have hitems := ih c'.rest.length (by omega) (hf ▸ hend) rfl
            cases found with
            | none => exact hitems.weaken fun _ ss _ hss => ⟨ss, rfl, hss⟩
            | some s => exact hitems.map (s :: ·)
          · rintro _ _ _ ⟨_, ts, us, rfl, ⟨s, rfl, hs⟩, ss, rfl, hss⟩
            exact .cons hs hss

theorem yields_enclosed (h : ∀ c, c.finish.isEnd → Yields (statement n) Settled c) {brace : Token}
    (hbrace : brace.kind = .leftBrace) (hend : c.finish.isEnd) :
    Yields (enclosed n brace) (fun ts s rest => Settled (brace :: ts) s rest) c := by
  refine ((yields_items h hend).closed _ _ (Stmt.block brace)).weaken ?_
  rintro _ _ _ ⟨ss, ts, t, rfl, hk, rfl, hss⟩
  exact ⟨.block hbrace hss hk, by simp [endsOpen]⟩

/-- What follows the first statement of a branch completes the derivation of its beginning. -/
theorem yields_otherwise (h : ∀ c, c.finish.isEnd → Yields (statement n) Settled c)
    {keyword : Token} (hkeyword : keyword.kind = .kwIf) (cond : Expr) (yes : Stmt)
    (hend : c.finish.isEnd) : Yields (otherwise n keyword cond yes) (fun vs s rest =>
      ∀ (l r : Token) (ts us : List Token), l.kind = .leftParen →
        Expression .expression ts cond → r.kind = .rightParen → Settled us yes (vs ++ rest) →
        Settled (keyword :: l :: ts ++ r :: us ++ vs) s rest) c := by
  refine Yields.optional ?_ ?_
  · refine (Yields.pure _ c).weaken ?_
    rintro _ _ rest ⟨rfl, rfl⟩ hhead l r ts us hl hcond hr ⟨hyes, -⟩
    refine ⟨by simpa using Statement.branch hkeyword hl hcond hr hyes, fun _ t ht => ?_⟩
    simpa using hhead t ht
  · intro other rest _ hother
    have hother : other.kind = .kwElse := by simpa using hother
    refine ((h { c with rest } hend).map (Stmt.branch keyword cond yes)).weaken ?_
    rintro vs _ left ⟨no, rfl, hno, hopen⟩ l r ts us hl hcond hr ⟨hyes, helse⟩
    have hclosed : endsOpen yes = false := by
      rw [Bool.eq_false_iff]
      intro hyes
      exact helse hyes other (by simp) hother
    refine ⟨.branchElse hkeyword hl hcond hr hyes hclosed hother hno, ?_⟩
    rw [endsOpen_branch _ _ _ (statement_ne_absent hno)]
    exact hopen

theorem yields_branched (h : ∀ c, c.finish.isEnd → Yields (statement n) Settled c)
    {keyword : Token} (hkeyword : keyword.kind = .kwIf) (hend : c.finish.isEnd) :
    Yields (branched n keyword) (fun ts s rest => Settled (keyword :: ts) s rest) c := by
  refine ((Yields.expect _ _ c).bind fun l c₁ _ hf₁ =>
    have hend₁ : c₁.finish.isEnd := hf₁ ▸ hend
    ((yieldsExpressions n).expression c₁ hend₁).bind fun cond c₂ _ hf₂ =>
    (Yields.expect _ _ c₂).bind fun r c₃ _ hf₃ =>
    have hend₃ : c₃.finish.isEnd := hf₃ ▸ hf₂ ▸ hend₁
    (h c₃ hend₃).bind fun yes c₄ _ hf₄ =>
    yields_otherwise h hkeyword cond yes (hf₄ ▸ hend₃)).weaken ?_
  rintro _ s rest ⟨l, _, _, rfl, ⟨rfl, hl⟩, cond, ts, _, rfl, hcond, r, _, _, rfl, ⟨rfl, hr⟩, yes,
    us, vs, rfl, hyes, hother⟩
  simpa using hother l r ts us hl hcond hr hyes

theorem yields_statement (n : Nat) (c : Cursor) (hend : c.finish.isEnd) :
    Yields (statement n) Settled c := by
  induction n generalizing c with
  | zero =>
      intro s c' hrun
      cases hrun
  | succ n ih =>
      cases hrest : c.rest with
      | nil => exact (yields_evaluated hend).congr (statement_of_nil n hrest hend)
      | cons t rest =>
          have hrun := statement_of_cons n hrest
          have hbehind : ∀ {p : Production Stmt},
              Yields p (fun ts s rest => Settled (t :: ts) s rest) { c with rest } →
              statement (n + 1) c = p { c with rest } → Yields (statement (n + 1)) Settled c := by
            intro p hp hpc
            refine (Yields.cons hrest hp hpc).weaken ?_
            rintro _ _ _ ⟨us, rfl, hs⟩
            exact hs
          split at hrun
          · next hk => exact hbehind (yields_printed hk hend) hrun
          · next hk => exact hbehind (yields_enclosed ih hk hend) hrun
          · next hk => exact hbehind (yields_branched ih hk hend) hrun
          · exact (yields_evaluated hend).congr hrun

end Statements

/-- A text that is parsed without a report is a list of declarations, and the statements returned
are its tree. -/
theorem program_sound (limit : Nat) {c : Cursor} (hend : c.finish.isEnd)
    (h : (program limit c).2.reports = c.reports) :
    Declarations c.rest (program limit c).1 := by
  induction c, hend using program_induction limit with
  | done c _ hnil =>
      rw [program_of_nil limit hnil, hnil]
      exact .nil
  | next c hend hend' hne ih =>
      have hahead := outermost_ahead limit hend
      have hprogram := program_of_ne_nil limit hend hne
      rw [hprogram] at h
      obtain ⟨hfirst, hrest⟩ := hahead.quiet (program_ahead limit hend') h
      have hss := ih hrest
      rw [hprogram]
      cases hbody : declaration limit c with
      | error e d =>
          have hmore := outermost_reports limit hend (by rw [outermost_of_error hbody])
          rw [hfirst] at hmore
          exact absurd hmore (Nat.lt_irrefl _)
      | ok s d =>
          rw [outermost_of_ok hbody] at hfirst hss ⊢
          obtain ⟨ts, new, hts, -, hnew, hs⟩ :=
            yields_declaration (yields_statement limit) hend s d hbody
          have hnil : new = [] := List.append_left_eq_self.mp (hnew.symm.trans hfirst)
          rw [hts]
          exact .cons (hs hnil) hss

end Parse

end Scribe
