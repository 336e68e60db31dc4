import Scribe.Proofs.Parse.Production

/-!
# Stable properties of runs

An induction over the whole grammar, carried out once. A property of runs that the primitive steps
have and that sequences keep is a property of every production. Properties are asked of a
production at a cursor, since what a step does depends on the token that stands next.
-/

namespace Scribe

namespace Parse

/-- A property of productions at cursors that the primitive steps of expressions have and that
sequences keep. No step of an expression takes a semicolon. -/
structure Stable (P : ∀ {α : Type}, Production α → Cursor → Prop) : Prop where
  pure : ∀ {α : Type} (a : α) (c : Cursor), P (pure a : Production α) c
  bind : ∀ {α β : Type} {p : Production α} {f : α → Production β} {c : Cursor}, P p c →
    (∀ a c', p c = .ok a c' → c'.finish = c.finish → P (f a) c') → P (p >>= f) c
  look : ∀ {α : Type} {f : Token → Production α} {c : Cursor}, P (f c.peek) c → P (peek >>= f) c
  fail : ∀ {α : Type} (cause : SyntaxCause) (c : Cursor), P (fail cause : Production α) c
  report : ∀ (d : Diagnostic) (c : Cursor), P (report d) c
  advance : ∀ {c : Cursor} {t : Token} {rest : List Token}, c.rest = t :: rest →
    t.kind ≠ .semicolon → P advance c
  accept : ∀ {kinds : TokenKind → Bool} (c : Cursor), kinds .semicolon = false → P (accept kinds) c
  expect : ∀ {kind : TokenKind} (cause : SyntaxCause) (c : Cursor), kind ≠ .semicolon →
    P (expect kind cause) c
  elements : ∀ (n : Nat) (bracket : Token) (c : Cursor),
    (∀ c, c.finish.isEnd → P (expression n) c) → c.finish.isEnd → P (elements n bracket) c

/-- A stable property of the productions of expressions with `n` levels left. -/
structure OnExpressions (P : ∀ {α : Type}, Production α → Cursor → Prop) (n : Nat) : Prop where
  expression : ∀ c, c.finish.isEnd → P (expression n) c
  operand : ∀ c, c.finish.isEnd → P (operand n) c
  chain : ∀ tier left c, c.finish.isEnd → P (chain tier n left) c
  chains : ∀ tiers left c, c.finish.isEnd → P (chains tiers n left) c

namespace Stable

variable {P : ∀ {α : Type}, Production α → Cursor → Prop}

theorem climb (hP : Stable P) {n : Nat} (h : OnExpressions P n) (tiers : List Tier) (c : Cursor)
    (hend : c.finish.isEnd) : P (climb tiers n) c := by
  refine hP.bind (h.operand c hend) ?_
  intro first c' _ hfinish
  exact h.chains tiers first c' (hfinish ▸ hend)

theorem grouped (hP : Stable P) {n : Nat} (h : ∀ c, c.finish.isEnd → P (expression n) c)
    (c : Cursor) (hend : c.finish.isEnd) : P (grouped n) c := by
  refine hP.bind (h c hend) ?_
  intro e c' _ _
  refine hP.bind (hP.expect _ c' (by decide)) ?_
  intro _ c'' _ _
  exact hP.pure e c''

theorem listed (hP : Stable P) {n : Nat} (h : ∀ c, c.finish.isEnd → P (expression n) c)
    (bracket : Token) (c : Cursor) (hend : c.finish.isEnd) : P (listed n bracket) c := by
  refine hP.look ?_
  split
  · next hk =>
    -- The end mark is no bracket, so the bracket seen is a token of the text.
    cases hrest : c.rest with
    | nil =>
        rw [Cursor.peek_of_nil hrest] at hk
        simp only [Token.isEnd, beq_iff_eq] at hend hk
        rw [hend] at hk
        cases hk
    | cons t rest =>
        rw [Cursor.peek_of_cons hrest] at hk
        have hsemi : t.kind ≠ .semicolon := by
          intro ht
          rw [ht] at hk
          cases hk
        refine hP.bind (hP.advance hrest hsemi) ?_
        intro _ c' _ _
        exact hP.pure _ c'
  · refine hP.bind (hP.elements n bracket c h hend) ?_
    intro elems c' _ _
    refine hP.bind (hP.expect _ c' (by decide)) ?_
    intro _ c'' _ _
    exact hP.pure _ c''

theorem prefixed (hP : Stable P) {n : Nat} (h : ∀ m, m < n → OnExpressions P m) (op : Token)
    (c : Cursor) (hend : c.finish.isEnd) : P (prefixed n op) c := by
  cases n with
  | zero => exact hP.fail _ c
  | succ m =>
      refine hP.bind ((h m (Nat.lt_succ_self m)).operand c hend) ?_
      intro e c' _ _
      exact hP.pure _ c'

theorem operand (hP : Stable P) {n : Nat} (h : ∀ m, m < n → OnExpressions P m)
    (hexpr : ∀ c, c.finish.isEnd → P (expression n) c) (c : Cursor) (hend : c.finish.isEnd) :
    P (operand n) c := by
  rw [operand_eq]
  refine hP.look ?_
  cases hrest : c.rest with
  | nil =>
      rw [Cursor.peek_of_nil hrest, opening_of_end hend]
      exact hP.fail _ c
  | cons t rest =>
      rw [Cursor.peek_of_cons hrest]
      by_cases hsemi : t.kind = .semicolon
      · rw [opening_of_semicolon hsemi]
        exact hP.fail _ c
      · have hadvance : P Parse.advance c := hP.advance hrest hsemi
        cases opening t with
        | sign => exact hP.bind hadvance fun _ c' _ hf => hP.prefixed h t c' (hf ▸ hend)
        | constant v => exact hP.bind hadvance fun _ c' _ _ => hP.pure _ c'
        | name => exact hP.bind hadvance fun _ c' _ _ => hP.pure _ c'
        | group => exact hP.bind hadvance fun _ c' _ hf => hP.grouped hexpr c' (hf ▸ hend)
        | array => exact hP.bind hadvance fun _ c' _ hf => hP.listed hexpr t c' (hf ▸ hend)
        | other => exact hP.fail _ c

theorem chain (hP : Stable P) {n : Nat} (h : ∀ m, m < n → OnExpressions P m) (tier : Tier)
    (left : Expr) (c : Cursor) (hend : c.finish.isEnd) : P (chain tier n left) c := by
  rw [chain_eq]
  refine hP.bind (hP.accept c (by cases tier <;> decide)) ?_
  intro found c' _ hf
  cases found with
  | none => exact hP.pure left c'
  | some op =>
      cases n with
      | zero => exact hP.fail _ c'
      | succ m =>
          have hm := h m (Nat.lt_succ_self m)
          refine hP.bind (hP.climb hm tier.tighter c' (hf ▸ hend)) ?_
          intro right c'' _ hf'
          exact hm.chain tier _ c'' (hf' ▸ hf ▸ hend)

theorem chains (hP : Stable P) {n : Nat}
    (h : ∀ tier left c, c.finish.isEnd → P (Parse.chain tier n left) c) (tiers : List Tier)
    (left : Expr) (c : Cursor) (hend : c.finish.isEnd) : P (chains tiers n left) c := by
  induction tiers generalizing left c with
  | nil =>
      rw [chains_nil]
      exact hP.pure left c
  | cons tier looser ih =>
      rw [chains_cons]
      refine hP.bind (h tier left c hend) ?_
      intro e c' _ hf
      exact ih e c' (hf ▸ hend)

theorem assigned (hP : Stable P) {n : Nat} (h : OnExpressions P n) (target : Expr) (c : Cursor)
    (hend : c.finish.isEnd) : P (assigned n target) c := by
  refine hP.bind (hP.accept c (by decide)) ?_
  intro found c' _ hf
  cases found with
  | none => exact hP.pure target c'
  | some equals =>
      refine hP.bind (h.expression c' (hf ▸ hend)) ?_
      intro value c'' _ _
      cases target
      case reference name => exact hP.pure _ c''
      all_goals exact hP.bind (hP.report _ c'') fun _ d _ _ => hP.pure _ d

theorem expression (hP : Stable P) {n : Nat} (h : ∀ m, m < n → OnExpressions P m) (c : Cursor)
    (hend : c.finish.isEnd) : P (expression n) c := by
  cases n with
  | zero =>
      rw [expression_zero]
      exact hP.fail _ c
  | succ m =>
      have hm := h m (Nat.lt_succ_self m)
      rw [expression_succ]
      refine hP.bind (hP.climb hm Tier.all c hend) ?_
      intro target c' _ hf
      exact hP.assigned hm target c' (hf ▸ hend)

theorem onExpressions (hP : Stable P) (n : Nat) : OnExpressions P n := by
  induction n using Nat.strongRecOn with
  | ind n ih =>
      have hexpr := hP.expression ih
      have hchain := hP.chain ih
      exact ⟨hexpr, hP.operand ih hexpr, hchain, hP.chains hchain⟩

end Stable

/-- A stable property that the primitive steps of statements have, too. -/
structure StableThroughout (P : ∀ {α : Type}, Production α → Cursor → Prop) : Prop
    extends Stable P where
  expectAny : ∀ (kind : TokenKind) (cause : SyntaxCause) (c : Cursor), P (Parse.expect kind cause) c
  tooDeep : ∀ (c : Cursor), P (statement 0) c
  items : ∀ (n : Nat) (c : Cursor), (∀ c, c.finish.isEnd → P (declaration n) c) →
    c.finish.isEnd → P (items n) c

namespace StableThroughout

variable {P : ∀ {α : Type}, Production α → Cursor → Prop}

theorem expression (hP : StableThroughout P) (n : Nat) (c : Cursor) (hend : c.finish.isEnd) :
    P (Parse.expression n) c :=
  (hP.toStable.onExpressions n).expression c hend

theorem closing (hP : StableThroughout P) (kind : TokenKind) (cause : SyntaxCause) (s : α)
    (c : Cursor) : P (do let _ ← expect kind cause; pure s) c :=
  hP.bind (hP.expectAny kind cause c) fun _ c' _ _ => hP.pure s c'

theorem declared (hP : StableThroughout P) (n : Nat) (c : Cursor) (hend : c.finish.isEnd) :
    P (declared n) c := by
  rw [declared_eq]
  refine hP.bind (hP.expectAny _ _ c) ?_
  intro name c' _ hf
  refine hP.bind (hP.accept c' (by decide)) ?_
  intro found c'' _ hf'
  cases found with
  | none => exact hP.closing _ _ _ c''
  | some _ =>
      refine hP.bind (hP.expression n c'' (hf' ▸ hf ▸ hend)) ?_
      intro init d _ _
      exact hP.closing _ _ _ d

theorem declaration (hP : StableThroughout P) {n : Nat}
    (h : ∀ c, c.finish.isEnd → P (statement n) c) (c : Cursor) (hend : c.finish.isEnd) :
    P (declaration n) c := by
  refine hP.bind (hP.accept c (by decide)) ?_
  intro found c' _ hf
  cases found with
  | none => exact h c' (hf ▸ hend)
  | some _ => exact hP.declared n c' (hf ▸ hend)

theorem branched (hP : StableThroughout P) {n : Nat}
    (h : ∀ c, c.finish.isEnd → P (statement n) c) (keyword : Token) (c : Cursor)
    (hend : c.finish.isEnd) : P (branched n keyword) c := by
  refine hP.bind (hP.expectAny _ _ c) ?_
  intro _ c₁ _ hf₁
  have hend₁ : c₁.finish.isEnd := hf₁ ▸ hend
  refine hP.bind (hP.expression n c₁ hend₁) ?_
  intro cond c₂ _ hf₂
  have hend₂ : c₂.finish.isEnd := hf₂ ▸ hend₁
  refine hP.bind (hP.expectAny _ _ c₂) ?_
  intro _ c₃ _ hf₃
  have hend₃ : c₃.finish.isEnd := hf₃ ▸ hend₂
  refine hP.bind (h c₃ hend₃) ?_
  intro yes c₄ _ hf₄
  have hend₄ : c₄.finish.isEnd := hf₄ ▸ hend₃
  refine hP.bind (hP.accept c₄ (by decide)) ?_
  intro found c₅ _ hf₅
  cases found with
  | none => exact hP.pure _ c₅
  | some _ => exact hP.bind (h c₅ (hf₅ ▸ hend₄)) fun no d _ _ => hP.pure _ d

theorem printed (hP : StableThroughout P) (n : Nat) (keyword : Token) (c : Cursor)
    (hend : c.finish.isEnd) : P (printed n keyword) c :=
  hP.bind (hP.expression n c hend) fun _ d _ _ => hP.closing _ _ _ d

theorem enclosed (hP : StableThroughout P) {n : Nat}
    (h : ∀ c, c.finish.isEnd → P (statement n) c) (brace : Token) (c : Cursor)
    (hend : c.finish.isEnd) : P (enclosed n brace) c :=
  hP.bind (hP.items n c (hP.declaration h) hend) fun _ d _ _ => hP.closing _ _ _ d

theorem evaluated (hP : StableThroughout P) (n : Nat) (c : Cursor) (hend : c.finish.isEnd) :
    P (evaluated n) c :=
  hP.bind (hP.expression n c hend) fun _ d _ _ => hP.closing _ _ _ d

theorem statementBehind (hP : StableThroughout P) {n : Nat}
    (h : ∀ c, c.finish.isEnd → P (statement n) c) (c : Cursor) (hend : c.finish.isEnd) :
    P (statementBehind n c.peek) c := by
  -- A category other than that of the end mark shows that a token is there to be taken.
  have hadvance : c.peek.kind ≠ .eof → c.peek.kind ≠ .semicolon → P Parse.advance c := by
    intro hk hsemi
    cases hrest : c.rest with
    | nil =>
        rw [Cursor.peek_of_nil hrest] at hk
        exact absurd (by simpa [Token.isEnd] using hend) hk
    | cons t rest =>
        rw [Cursor.peek_of_cons hrest] at hsemi
        exact hP.advance hrest hsemi
  unfold Parse.statementBehind
  split
  · next hk =>
    refine hP.bind (hadvance (by rw [hk]; decide) (by rw [hk]; decide)) ?_
    intro _ c' _ hf
    exact hP.printed n c.peek c' (hf ▸ hend)
  · next hk =>
    refine hP.bind (hadvance (by rw [hk]; decide) (by rw [hk]; decide)) ?_
    intro _ c' _ hf
    exact hP.enclosed h c.peek c' (hf ▸ hend)
  · next hk =>
    refine hP.bind (hadvance (by rw [hk]; decide) (by rw [hk]; decide)) ?_
    intro _ c' _ hf
    exact hP.branched h c.peek c' (hf ▸ hend)
  · exact hP.evaluated n c hend

theorem statement (hP : StableThroughout P) (n : Nat) (c : Cursor) (hend : c.finish.isEnd) :
    P (statement n) c := by
  induction n generalizing c with
  | zero => exact hP.tooDeep c
  | succ n ih =>
      rw [statement_succ]
      exact hP.look (hP.statementBehind ih c hend)

end StableThroughout

end Parse

end Scribe
