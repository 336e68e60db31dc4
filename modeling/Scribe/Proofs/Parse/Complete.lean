import Scribe.Proofs.Parse.Grammar
import Scribe.Proofs.Parse.Progress

/-!
# What is derivable is parsed

A production reads a derivation up to its last token, provided that what stands behind it cannot
continue it. As many levels as there are tokens suffice: each level that is entered goes with a
token of its own.
-/

namespace Scribe

namespace Parse

open Grammar

/-- The cursor from which the tokens `ts` lead to `c`. -/
def Cursor.before (c : Cursor) (ts : List Token) : Cursor := { c with rest := ts ++ c.rest }

theorem Cursor.before_append (c : Cursor) (ts us : List Token) :
    c.before (ts ++ us) = (c.before us).before ts := by
  simp [Cursor.before]

theorem Cursor.before_rest_cons (c : Cursor) (t : Token) (ts : List Token) :
    (c.before (t :: ts)).rest = t :: (c.before ts).rest := rfl

def Cursor.Next (c : Cursor) (p : TokenKind → Prop) : Prop := ∀ t ∈ c.rest.head?, p t.kind

theorem Cursor.next_before_cons {c : Cursor} {t : Token} {ts : List Token}
    {p : TokenKind → Prop} : (c.before (t :: ts)).Next p ↔ p t.kind := by
  simp [Cursor.Next, Cursor.before]

theorem accept_before (c : Cursor) {kinds : TokenKind → Bool} {t : Token} (ts : List Token)
    (h : kinds t.kind = true) : accept kinds (c.before (t :: ts)) = .ok (some t) (c.before ts) := by
  rw [accept_of_cons kinds (c.before_rest_cons t ts), if_pos h]
  rfl

theorem accept_none {c : Cursor} {kinds : TokenKind → Bool}
    (h : c.Next fun kind => kinds kind = false) : accept kinds c = .ok none c := by
  rcases accept_cases kinds c with ⟨t, rest, hrest, hk, -⟩ | ⟨-, hacc⟩
  · rw [h t (by simp [hrest])] at hk
    cases hk
  · exact hacc

theorem expect_before (c : Cursor) {kind : TokenKind} (cause : SyntaxCause) {t : Token}
    (ts : List Token) (h : t.kind = kind) :
    expect kind cause (c.before (t :: ts)) = .ok t (c.before ts) :=
  expect_eq_ok.mpr ⟨_, rfl, h, rfl⟩

/-! ## Expressions -/

/-- The next token is no operator of these tiers. -/
def Cursor.Rests (c : Cursor) (tiers : List Tier) : Prop :=
  c.Next fun kind => ∀ tier ∈ tiers, tier.operators kind = false

/-- The next token continues no expression. -/
def Cursor.Ends (c : Cursor) : Prop :=
  c.Rests Tier.all ∧ c.Next fun kind => kind ≠ .equal

/-- An operator of a tier is none of a tighter one. -/
theorem operators_tighter {tier tighter : Tier} {kind : TokenKind} (h : kind ∈ operatorsOf tier)
    (hmem : tighter ∈ tier.tighter) : tighter.operators kind = false := by
  cases tier <;> simp only [Tier.tighter, List.mem_cons, List.not_mem_nil, or_false] at hmem <;>
    simp only [operatorsOf, List.mem_cons, List.not_mem_nil, or_false] at h <;>
    rcases hmem with rfl | rfl | rfl <;> rcases h with rfl | rfl | rfl | rfl <;> rfl

theorem climb_snoc (tiers : List Tier) (tier : Tier) (n : Nat) :
    climb (tiers ++ [tier]) n = climb tiers n >>= chain tier n := by
  have hchains : ∀ left, chains (tiers ++ [tier]) n left =
      chains tiers n left >>= chain tier n := by
    induction tiers with
    | nil =>
        intro left
        have hnil : chains [] n = pure := funext (chains_nil n)
        rw [List.nil_append, chains_cons, hnil, bind_pure, pure_bind]
    | cons first tiers ih =>
        intro left
        rw [List.cons_append, chains_cons, chains_cons, bind_assoc, funext ih]
  simp only [climb, hchains, bind_assoc]

theorem Cursor.ends_before (c : Cursor) {t : Token} (ts : List Token)
    (h : t.kind ∈ [.rightParen, .rightBracket, .comma, .semicolon]) :
    (c.before (t :: ts)).Ends := by
  simp only [List.mem_cons, List.not_mem_nil, or_false] at h
  constructor
  · refine Cursor.next_before_cons.mpr ?_
    intro tier _
    rcases h with h | h | h | h <;> rw [h] <;> cases tier <;> rfl
  · refine Cursor.next_before_cons.mpr ?_
    rcases h with h | h | h | h <;> rw [h] <;> decide

theorem chain_rests {tier : Tier} {c : Cursor} (h : c.Next fun kind => tier.operators kind = false)
    (m : Nat) (e : Expr) : chain tier m e c = .ok e c := by
  rw [chain_eq, bind_of_ok (accept_none h)]
  rfl

/-! Single productions, from a cursor in front of their tokens. -/

section Productions

variable {n : Nat} {c : Cursor} {ts us : List Token} {e : Expr}

theorem operand_constant {t : Token} {v : Value} (h : Denotes t v) :
    operand n (c.before [t]) = .ok (.literal v t.line) c := by
  rw [operand_of_cons n (c.before_rest_cons t []), opening_eq_constant.mpr h]
  rfl

theorem operand_sign {op : Token} (hop : op.kind = .bang ∨ op.kind = .minus)
    (he : operand n (c.before ts) = .ok e c) :
    operand (n + 1) (c.before (op :: ts)) = .ok (.unary op e) c := by
  rw [operand_of_cons _ (c.before_rest_cons op ts), opening_eq_sign.mpr hop]
  show prefixed (n + 1) op (c.before ts) = _
  rw [prefixed, bind_of_ok he]
  rfl

theorem operand_emptyArray {l r : Token} (hl : l.kind = .leftBracket)
    (hr : r.kind = .rightBracket) : operand n (c.before [l, r]) = .ok (.array l []) c := by
  rw [operand_of_cons n (c.before_rest_cons l [r]), opening_eq_array.mpr hl]
  show listed n l (c.before [r]) = _
  rw [listed, peek_bind, Cursor.peek_of_cons (c.before_rest_cons r []), hr]
  rfl

theorem operand_array {l r : Token} {es : List Expr} (hl : l.kind = .leftBracket)
    (hstarts : ∃ t us, ts = t :: us ∧ opening t ≠ .other) (hr : r.kind = .rightBracket)
    (hes : elements n l ((c.before [r]).before ts) = .ok es (c.before [r])) :
    operand n (c.before (l :: ts ++ [r])) = .ok (.array l es) c := by
  have hpeek : ¬ ((c.before [r]).before ts).peek.kind == .rightBracket := by
    obtain ⟨t, us, rfl, ht⟩ := hstarts
    rw [Cursor.peek_of_cons (Cursor.before_rest_cons _ t us), beq_iff_eq]
    intro hk
    exact ht (by simp [opening, hk])
  rw [List.cons_append, operand_of_cons n (c.before_rest_cons l (ts ++ [r])),
    opening_eq_array.mpr hl]
  show listed n l (c.before (ts ++ [r])) = _
  rw [listed, Cursor.before_append, peek_bind, if_neg hpeek, bind_of_ok hes,
    bind_of_ok (expect_before c _ [] hr)]
  rfl

theorem expression_of_climb (hends : c.Ends) (h : climb Tier.all n (c.before ts) = .ok e c) :
    expression (n + 1) (c.before ts) = .ok e c := by
  have hequal : c.Next fun kind => (kind == .equal) = false := fun t ht => by
    simpa using hends.2 t ht
  rw [expression_succ, bind_of_ok h, assigned, bind_of_ok (accept_none hequal)]
  rfl

theorem expression_of_operand (hends : c.Ends) (h : operand n (c.before ts) = .ok e c) :
    expression (n + 1) (c.before ts) = .ok e c := by
  refine expression_of_climb hends ?_
  have hchain : ∀ tier ∈ Tier.all, chain tier n e c = .ok e c := fun tier htier =>
    chain_rests (fun t ht => hends.1 t ht tier htier) n e
  rw [climb, bind_of_ok h, Tier.all, chains_cons, bind_of_ok (hchain .factor (by decide)),
    chains_cons, bind_of_ok (hchain .term (by decide)), chains_cons,
    bind_of_ok (hchain .comparison (by decide)), chains_cons,
    bind_of_ok (hchain .equality (by decide)), chains_nil]
  rfl

theorem elements_last (bracket : Token) (hend : c.finish.isEnd)
    (hcomma : c.Next fun kind => kind ≠ .comma) (he : expression n (c.before ts) = .ok e c) :
    elements n bracket (c.before ts) = .ok [e] c := by
  have hno : c.Next fun kind => (kind == .comma) = false := fun t ht => by
    simpa using hcomma t ht
  rw [elements_eq n bracket (c := c.before ts) hend, bind_of_ok he, bind_of_ok (accept_none hno)]
  rfl

theorem elements_more (bracket : Token) (hend : c.finish.isEnd) {comma : Token} {es : List Expr}
    (hcomma : comma.kind = .comma)
    (he : expression n ((c.before (comma :: us)).before ts) = .ok e (c.before (comma :: us)))
    (hes : elements n bracket (c.before us) = .ok es c) :
    elements n bracket (c.before (ts ++ comma :: us)) = .ok (e :: es) c := by
  rw [elements_eq n bracket (c := c.before (ts ++ comma :: us)) hend, Cursor.before_append,
    bind_of_ok he, bind_of_ok (accept_before c us (by simp [hcomma]))]
  show (elements n bracket >>= _) (c.before us) = _
  rw [bind_of_ok hes]
  rfl

theorem declaration_initialized {keyword name equals semicolon : Token}
    (hkeyword : keyword.kind = .kwLet ∨ keyword.kind = .kwVar) (hname : name.kind = .identifier)
    (heq : equals.kind = .equal) (hsemicolon : semicolon.kind = .semicolon)
    (he : expression n ((c.before [semicolon]).before ts) = .ok e (c.before [semicolon])) :
    declaration n (c.before (keyword :: name :: equals :: ts ++ [semicolon])) =
      .ok (.declare name e) c := by
  rw [List.cons_append, declaration_of_cons n (c.before_rest_cons keyword _),
    if_pos (introduces_eq_true.mpr hkeyword), declared_eq]
  show (expect _ _ >>= _) (c.before (name :: equals :: (ts ++ [semicolon]))) = _
  rw [bind_of_ok (expect_before c _ _ hname), initialized,
    bind_of_ok (accept_before c _ (by simp [heq]))]
  show (expression n >>= _) (c.before (ts ++ [semicolon])) = _
  rw [Cursor.before_append, bind_of_ok he, bind_of_ok (expect_before c _ [] hsemicolon)]
  rfl

end Productions

/-- What reading a derivation comes to. Behind an operand of a tier, its chain goes on with the
levels left. -/
def Reads : Rank → List Token → Expr → Prop
  | .primary, ts, e | .unary, ts, e => ∀ n (c : Cursor), c.finish.isEnd → ts.length ≤ n + 1 →
      operand n (c.before ts) = .ok e c
  | .tier tier, ts, e => ∀ n (c : Cursor), c.finish.isEnd → c.Rests tier.tighter →
      ts.length ≤ n + 1 → ∃ m, n + 1 ≤ m + ts.length ∧
        (climb tier.tighter n >>= chain tier n) (c.before ts) = chain tier m e c
  | .expression, ts, e => ∀ n (c : Cursor), c.finish.isEnd → c.Ends → ts.length ≤ n →
      expression n (c.before ts) = .ok e c

/-- The tiers up to one read what that one derives. -/
theorem Reads.climb_tier {tier : Tier} {ts : List Token} {e : Expr} (h : Reads (.tier tier) ts e)
    {n : Nat} {c : Cursor} (hend : c.finish.isEnd) (hrests : c.Rests (tier.tighter ++ [tier]))
    (hlen : ts.length ≤ n + 1) : climb (tier.tighter ++ [tier]) n (c.before ts) = .ok e c := by
  have hbelow : c.Rests tier.tighter := fun t ht other hmem =>
    hrests t ht other (List.mem_append_left _ hmem)
  obtain ⟨m, -, hrun⟩ := h n c hend hbelow hlen
  rw [climb_snoc, hrun]
  exact chain_rests (fun t ht => hrests t ht tier (by simp)) m e

/-- The tiers below one read its operands. -/
theorem Reads.climb_operand {tier : Tier} {ts : List Token} {e : Expr}
    (h : Reads (operandRank tier) ts e) {n : Nat} {c : Cursor} (hend : c.finish.isEnd)
    (hrests : c.Rests tier.tighter) (hlen : ts.length ≤ n + 1) :
    climb tier.tighter n (c.before ts) = .ok e c := by
  cases tier with
  | factor =>
      have hoperand : operand n (c.before ts) = .ok e c := h n c hend hlen
      rw [Tier.tighter, climb, bind_of_ok hoperand, chains_nil]
      rfl
  | term =>
      have hbelow : Reads (.tier .factor) ts e := h
      exact hbelow.climb_tier hend hrests hlen
  | comparison =>
      have hbelow : Reads (.tier .term) ts e := h
      exact hbelow.climb_tier hend hrests hlen
  | equality =>
      have hbelow : Reads (.tier .comparison) ts e := h
      exact hbelow.climb_tier hend hrests hlen

def ReadsElements (ts : List Token) (es : List Expr) : Prop :=
  ∀ n (bracket : Token) (c : Cursor), c.finish.isEnd → c.Ends → (c.Next fun kind => kind ≠ .comma) →
    ts.length ≤ n → elements n bracket (c.before ts) = .ok es c

section Constructors

variable {ts us : List Token} {e : Expr}

theorem reads_constant {t : Token} {v : Value} (h : Denotes t v) :
    Reads .primary [t] (.literal v t.line) := by
  intro n c _ _
  exact operand_constant h

theorem reads_name {t : Token} (h : t.kind = .identifier) : Reads .primary [t] (.reference t) := by
  intro n c _ _
  rw [operand_of_cons n (c.before_rest_cons t []), opening_eq_name.mpr h]
  rfl

theorem reads_group {l r : Token} (hl : l.kind = .leftParen) (he : Reads .expression ts e)
    (hr : r.kind = .rightParen) : Reads .primary (l :: ts ++ [r]) e := by
  intro n c hend hlen
  have hexpr : expression n ((c.before [r]).before ts) = .ok e (c.before [r]) := by
    refine he n _ hend (c.ends_before [] (by simp [hr])) ?_
    simp only [List.length_append, List.length_cons] at hlen
    omega
  rw [List.cons_append, operand_of_cons n (c.before_rest_cons l (ts ++ [r])),
    opening_eq_group.mpr hl]
  show grouped n (c.before (ts ++ [r])) = _
  rw [grouped, Cursor.before_append, bind_of_ok hexpr, bind_of_ok (expect_before c _ [] hr)]
  rfl

theorem reads_emptyArray {l r : Token} (hl : l.kind = .leftBracket) (hr : r.kind = .rightBracket) :
    Reads .primary [l, r] (.array l []) := by
  intro n c _ _
  exact operand_emptyArray hl hr

theorem reads_array {l r : Token} {es : List Expr} (hl : l.kind = .leftBracket)
    (hstarts : ∃ t us, ts = t :: us ∧ opening t ≠ .other) (hes : ReadsElements ts es)
    (hr : r.kind = .rightBracket) : Reads .primary (l :: ts ++ [r]) (.array l es) := by
  intro n c hend hlen
  refine operand_array hl hstarts hr ?_
  refine hes n l _ hend (c.ends_before [] (by simp [hr])) ?_ ?_
  · exact Cursor.next_before_cons.mpr (by simp [hr])
  · simp only [List.length_append, List.length_cons] at hlen
    omega

theorem reads_unary {op : Token} (hop : op.kind = .bang ∨ op.kind = .minus)
    (hpos : 0 < ts.length) (he : Reads .unary ts e) : Reads .unary (op :: ts) (.unary op e) := by
  intro n c hend hlen
  rw [List.length_cons] at hlen
  obtain ⟨m, rfl⟩ := Nat.exists_eq_succ_of_ne_zero (n := n) (by omega)
  exact operand_sign hop (he m c hend (by omega))

theorem reads_operand {tier : Tier} (hpos : 0 < ts.length) (he : Reads (operandRank tier) ts e) :
    Reads (.tier tier) ts e := by
  intro n c hend hrests hlen
  exact ⟨n, by omega, bind_of_ok (he.climb_operand hend hrests hlen)⟩

theorem reads_binary {tier : Tier} {op : Token} {left right : Expr} (hpos : 0 < us.length)
    (hleft : Reads (.tier tier) ts left) (hop : op.kind ∈ operatorsOf tier)
    (hright : Reads (operandRank tier) us right) :
    Reads (.tier tier) (ts ++ op :: us) (.binary left op right) := by
  intro n c hend hrests hlen
  rw [List.length_append, List.length_cons] at hlen ⊢
  have hrests' : (c.before (op :: us)).Rests tier.tighter :=
    Cursor.next_before_cons.mpr fun other hmem => operators_tighter hop hmem
  obtain ⟨m, hm, hrun⟩ := hleft n (c.before (op :: us)) hend hrests' (by omega)
  -- The operator uses a level, and what stands on its left has left one.
  obtain ⟨m, rfl⟩ := Nat.exists_eq_succ_of_ne_zero (n := m) (by omega)
  refine ⟨m, by omega, ?_⟩
  rw [Cursor.before_append, hrun, chain_eq,
    bind_of_ok (accept_before c us (operators_eq_true.mpr hop))]
  show (climb tier.tighter m >>= _) (c.before us) = _
  rw [bind_of_ok (hright.climb_operand hend hrests (by omega))]

theorem reads_equality (hpos : 0 < ts.length) (he : Reads (.tier .equality) ts e) :
    Reads .expression ts e := by
  intro n c hend hends hlen
  obtain ⟨m, rfl⟩ := Nat.exists_eq_succ_of_ne_zero (n := n) (by omega)
  exact expression_of_climb hends (he.climb_tier hend hends.1 hlen)

theorem reads_assign {name equals : Token} {value : Expr} (hpos : 0 < ts.length)
    (htarget : Reads (.tier .equality) ts (.reference name)) (heq : equals.kind = .equal)
    (hvalue : Reads .expression us value) :
    Reads .expression (ts ++ equals :: us) (.assign name value) := by
  intro n c hend hends hlen
  rw [List.length_append, List.length_cons] at hlen
  obtain ⟨m, rfl⟩ := Nat.exists_eq_succ_of_ne_zero (n := n) (by omega)
  have hrests : (c.before (equals :: us)).Rests Tier.all := by
    refine Cursor.next_before_cons.mpr ?_
    intro tier _
    rw [heq]
    cases tier <;> rfl
  have hclimb : climb Tier.all m (c.before (ts ++ equals :: us)) =
      .ok (.reference name) (c.before (equals :: us)) := by
    rw [Cursor.before_append]
    exact htarget.climb_tier hend hrests (by omega)
  rw [expression_succ, bind_of_ok hclimb, assigned,
    bind_of_ok (accept_before c us (by simp [heq]))]
  show (expression m >>= _) (c.before us) = _
  rw [bind_of_ok (hvalue m c hend hends (by omega))]
  rfl

theorem reads_last (he : Reads .expression ts e) : ReadsElements ts [e] := by
  intro n bracket c hend hends hcomma hlen
  exact elements_last bracket hend hcomma (he n c hend hends hlen)

theorem reads_more {comma : Token} {es : List Expr} (he : Reads .expression ts e)
    (hcomma : comma.kind = .comma) (hes : ReadsElements us es) :
    ReadsElements (ts ++ comma :: us) (e :: es) := by
  intro n bracket c hend hends hno hlen
  rw [List.length_append, List.length_cons] at hlen
  refine elements_more bracket hend hcomma ?_ (hes n bracket c hend hends hno (by omega))
  exact he n _ hend (c.ends_before us (by simp [hcomma])) (by omega)

end Constructors

theorem elements_starts {ts : List Token} {es : List Expr} (h : Elements ts es) :
    ∃ t us, ts = t :: us ∧ opening t ≠ .other := by
  cases h with
  | last he => exact expression_starts he
  | more he _ _ =>
      obtain ⟨t, us, rfl, ht⟩ := expression_starts he
      exact ⟨t, _, rfl, ht⟩

mutual

theorem reads : {r : Rank} → {ts : List Token} → {e : Expr} → Expression r ts e → Reads r ts e
  | _, _, _, .constant h => reads_constant h
  | _, _, _, .name h => reads_name h
  | _, _, _, .group hl he hr => reads_group hl (reads he) hr
  | _, _, _, .emptyArray hl hr => reads_emptyArray hl hr
  | _, _, _, .array hl hes hr => reads_array hl (elements_starts hes) (readsElements hes) hr
  | _, _, _, .primary he => (reads he : Reads .primary _ _)
  | _, _, _, .unary hop he => reads_unary hop (expression_length he) (reads he)
  | _, _, _, .operand he => reads_operand (expression_length he) (reads he)
  | _, _, _, .binary hleft hop hright =>
      reads_binary (expression_length hright) (reads hleft) hop (reads hright)
  | _, _, _, .equality he => reads_equality (expression_length he) (reads he)
  | _, _, _, .assign htarget heq hvalue =>
      reads_assign (expression_length htarget) (reads htarget) heq (reads hvalue)

theorem readsElements : {ts : List Token} → {es : List Expr} → Elements ts es → ReadsElements ts es
  | _, _, .last he => reads_last (reads he)
  | _, _, .more he hcomma hes => reads_more (reads he) hcomma (readsElements hes)

end

/-! ## Statements -/

/-- A token that can follow a declaration of a block without belonging to it: it neither closes the
block nor is it `else`. -/
def Leads (t : Token) : Prop := closes t = false ∧ t.kind ≠ .kwElse

theorem expression_leads {t : Token} (h : opening t ≠ .other) :
    introduces t.kind = false ∧ Leads t := by
  cases hk : t.kind <;>
    simp [opening, hk, introduces, Leads, closes, Token.isEnd] at h ⊢

theorem statement_starts {ts : List Token} {s : Stmt} (h : Statement ts s) :
    ∃ t us, ts = t :: us ∧ introduces t.kind = false ∧ Leads t := by
  cases h with
  | print hk _ _ => exact ⟨_, _, rfl, by simp [introduces, Leads, closes, Token.isEnd, hk]⟩
  | block hk _ _ => exact ⟨_, _, rfl, by simp [introduces, Leads, closes, Token.isEnd, hk]⟩
  | branch hk _ _ _ _ => exact ⟨_, _, rfl, by simp [introduces, Leads, closes, Token.isEnd, hk]⟩
  | branchElse hk _ _ _ _ _ _ _ =>
      exact ⟨_, _, rfl, by simp [introduces, Leads, closes, Token.isEnd, hk]⟩
  | expression he _ =>
      obtain ⟨t, us, rfl, ht⟩ := expression_starts he
      exact ⟨t, _, rfl, expression_leads ht⟩

theorem declaration_starts {ts : List Token} {s : Stmt} (h : Declaration ts s) :
    ∃ t us, ts = t :: us ∧ Leads t := by
  have hleads : ∀ {t : Token}, t.kind = .kwLet ∨ t.kind = .kwVar → Leads t := by
    intro t hk
    rcases hk with hk | hk <;> simp [Leads, closes, Token.isEnd, hk]
  cases h with
  | uninitialized hk _ _ => exact ⟨_, _, rfl, hleads hk⟩
  | initialized hk _ _ _ _ => exact ⟨_, _, rfl, hleads hk⟩
  | statement hs =>
      obtain ⟨t, us, rfl, -, ht⟩ := statement_starts hs
      exact ⟨t, us, rfl, ht⟩

/-- No `else` stands next that the statement could take. -/
def Cursor.Leaves (c : Cursor) (s : Stmt) : Prop :=
  endsOpen s = true → c.Next fun kind => kind ≠ .kwElse

def ReadsStatement (ts : List Token) (s : Stmt) : Prop :=
  ∀ n (c : Cursor), c.finish.isEnd → c.Leaves s → ts.length ≤ n →
    statement n (c.before ts) = .ok s c

def ReadsDeclaration (ts : List Token) (s : Stmt) : Prop :=
  ∀ n (c : Cursor), c.finish.isEnd → c.Leaves s → ts.length ≤ n →
    declaration n (c.before ts) = .ok s c

def ReadsDeclarations (ts : List Token) (ss : List Stmt) : Prop :=
  ∀ n (c : Cursor), c.finish.isEnd → closes c.peek = true → ts.length ≤ n →
    items n (c.before ts) = .ok ss c

section Constructors

variable {ts us vs : List Token} {e : Expr}

theorem expression_before (he : Expression .expression ts e) {t : Token}
    (ht : t.kind ∈ [.rightParen, .rightBracket, .comma, .semicolon]) {n : Nat} {c : Cursor}
    (hend : c.finish.isEnd) (hlen : ts.length ≤ n) :
    expression n (c.before (ts ++ t :: us)) = .ok e (c.before (t :: us)) := by
  rw [Cursor.before_append]
  exact reads he n _ hend (c.ends_before us ht) hlen

theorem reads_print {keyword semicolon : Token} (hkeyword : keyword.kind = .kwPrint)
    (he : Expression .expression ts e) (hsemicolon : semicolon.kind = .semicolon) :
    ReadsStatement (keyword :: ts ++ [semicolon]) (.print keyword e) := by
  intro n c hend _ hlen
  simp only [List.cons_append, List.length_cons, List.length_append] at hlen
  obtain ⟨m, rfl⟩ := Nat.exists_eq_succ_of_ne_zero (n := n) (by omega)
  rw [List.cons_append, statement_of_cons m (c.before_rest_cons keyword _), hkeyword]
  show printed m keyword (c.before (ts ++ [semicolon])) = _
  rw [printed, bind_of_ok (expression_before he (by simp [hsemicolon]) hend (by omega)),
    bind_of_ok (expect_before c _ [] hsemicolon)]
  rfl

theorem reads_block {l r : Token} {ss : List Stmt} (hl : l.kind = .leftBrace)
    (hss : ReadsDeclarations ts ss) (hr : r.kind = .rightBrace) :
    ReadsStatement (l :: ts ++ [r]) (.block l ss) := by
  intro n c hend _ hlen
  simp only [List.cons_append, List.length_cons, List.length_append] at hlen
  obtain ⟨m, rfl⟩ := Nat.exists_eq_succ_of_ne_zero (n := n) (by omega)
  have hcloses : closes (c.before [r]).peek = true := by
    rw [Cursor.peek_of_cons (c.before_rest_cons r [])]
    simp [closes, hr]
  have hitems : items m (c.before (ts ++ [r])) = .ok ss (c.before [r]) := by
    rw [Cursor.before_append]
    exact hss m _ hend hcloses (by omega)
  rw [List.cons_append, statement_of_cons m (c.before_rest_cons l _), hl]
  show enclosed m l (c.before (ts ++ [r])) = _
  rw [enclosed, bind_of_ok hitems, bind_of_ok (expect_before c _ [] hr)]
  rfl

theorem reads_evaluated {semicolon : Token} (he : Expression .expression ts e)
    (hsemicolon : semicolon.kind = .semicolon) :
    ReadsStatement (ts ++ [semicolon]) (.expression e) := by
  intro n c hend _ hlen
  rw [List.length_append, List.length_singleton] at hlen
  obtain ⟨m, rfl⟩ := Nat.exists_eq_succ_of_ne_zero (n := n) (by omega)
  have hrun : statement (m + 1) (c.before (ts ++ [semicolon])) =
      evaluated m (c.before (ts ++ [semicolon])) := by
    obtain ⟨t, us, rfl, ht⟩ := expression_starts he
    rw [List.cons_append, statement_of_cons m (c.before_rest_cons t _)]
    cases hk : t.kind <;> simp [opening, hk] at ht ⊢
  rw [hrun, evaluated, bind_of_ok (expression_before he (by simp [hsemicolon]) hend (by omega)),
    bind_of_ok (expect_before c _ [] hsemicolon)]
  rfl

theorem statement_branch {keyword l r : Token} {yes : Stmt} (hkeyword : keyword.kind = .kwIf)
    (hl : l.kind = .leftParen) (he : Expression .expression ts e) (hr : r.kind = .rightParen)
    (hyes : ReadsStatement us yes) {n : Nat} {c : Cursor} (hend : c.finish.isEnd)
    (hleaves : c.Leaves yes) (hlen : ts.length + us.length ≤ n) :
    statement (n + 1) (c.before (keyword :: l :: ts ++ r :: us)) = otherwise n keyword e yes c := by
  rw [List.cons_append, statement_of_cons n (c.before_rest_cons keyword _), hkeyword]
  show branched n keyword (c.before (l :: (ts ++ r :: us))) = _
  rw [branched, bind_of_ok (expect_before c _ _ hl),
    bind_of_ok (expression_before he (by simp [hr]) hend (by omega)),
    bind_of_ok (expect_before c _ _ hr), bind_of_ok (hyes n c hend hleaves (by omega))]

theorem reads_branch {keyword l r : Token} {yes : Stmt} (hkeyword : keyword.kind = .kwIf)
    (hl : l.kind = .leftParen) (he : Expression .expression ts e) (hr : r.kind = .rightParen)
    (hyes : ReadsStatement us yes) :
    ReadsStatement (keyword :: l :: ts ++ r :: us) (.branch keyword e yes .absent) := by
  intro n c hend hleaves hlen
  simp only [List.cons_append, List.length_cons, List.length_append] at hlen
  obtain ⟨m, rfl⟩ := Nat.exists_eq_succ_of_ne_zero (n := n) (by omega)
  have hnext : c.Next fun kind => kind ≠ .kwElse := hleaves rfl
  have hnone : accept (· == .kwElse) c = .ok none c := accept_none fun t ht => by
    simpa using hnext t ht
  rw [statement_branch hkeyword hl he hr hyes hend (fun _ => hnext) (by omega), otherwise,
    bind_of_ok hnone]
  rfl

theorem reads_branchElse {keyword l r other : Token} {yes no : Stmt}
    (hkeyword : keyword.kind = .kwIf) (hl : l.kind = .leftParen)
    (he : Expression .expression ts e) (hr : r.kind = .rightParen) (hyes : ReadsStatement us yes)
    (hclosed : endsOpen yes = false) (hother : other.kind = .kwElse) (hne : no ≠ .absent)
    (hno : ReadsStatement vs no) :
    ReadsStatement (keyword :: l :: ts ++ r :: us ++ other :: vs) (.branch keyword e yes no) := by
  intro n c hend hleaves hlen
  simp only [List.cons_append, List.length_cons, List.length_append] at hlen
  obtain ⟨m, rfl⟩ := Nat.exists_eq_succ_of_ne_zero (n := n) (by omega)
  have hleaves' : (c.before (other :: vs)).Leaves yes := fun hopen => by
    rw [hclosed] at hopen
    cases hopen
  have hno' : statement m (c.before vs) = .ok no c := by
    refine hno m c hend ?_ (by omega)
    rw [Cursor.Leaves, ← endsOpen_branch keyword e yes hne]
    exact hleaves
  rw [Cursor.before_append,
    statement_branch hkeyword hl he hr hyes (c := c.before (other :: vs)) hend hleaves' (by omega),
    otherwise, bind_of_ok (accept_before c vs (by simp [hother]))]
  show (statement m >>= _) (c.before vs) = _
  rw [bind_of_ok hno']
  rfl

theorem reads_uninitialized {keyword name semicolon : Token}
    (hkeyword : keyword.kind = .kwLet ∨ keyword.kind = .kwVar) (hname : name.kind = .identifier)
    (hsemicolon : semicolon.kind = .semicolon) :
    ReadsDeclaration [keyword, name, semicolon] (.declare name .absent) := by
  intro n c hend _ _
  have hnone : accept (· == .equal) (c.before [semicolon]) = .ok none (c.before [semicolon]) :=
    accept_none (Cursor.next_before_cons.mpr (by simp [hsemicolon]))
  rw [declaration_of_cons n (c.before_rest_cons keyword _),
    if_pos (introduces_eq_true.mpr hkeyword), declared_eq]
  show (expect _ _ >>= _) (c.before [name, semicolon]) = _
  rw [bind_of_ok (expect_before c _ _ hname), initialized, bind_of_ok hnone]
  show (expect _ _ >>= _) (c.before [semicolon]) = _
  rw [bind_of_ok (expect_before c _ [] hsemicolon)]
  rfl

theorem reads_initialized {keyword name equals semicolon : Token}
    (hkeyword : keyword.kind = .kwLet ∨ keyword.kind = .kwVar) (hname : name.kind = .identifier)
    (heq : equals.kind = .equal) (he : Expression .expression ts e)
    (hsemicolon : semicolon.kind = .semicolon) :
    ReadsDeclaration (keyword :: name :: equals :: ts ++ [semicolon]) (.declare name e) := by
  intro n c hend _ hlen
  simp only [List.cons_append, List.length_cons, List.length_append] at hlen
  refine declaration_initialized hkeyword hname heq hsemicolon ?_
  exact reads he n _ hend (c.ends_before [] (by simp [hsemicolon])) (by omega)

theorem reads_statement {s : Stmt} (hstarts : ∃ t us, ts = t :: us ∧ introduces t.kind = false)
    (hs : ReadsStatement ts s) : ReadsDeclaration ts s := by
  intro n c hend hleaves hlen
  have hrun : declaration n (c.before ts) = statement n (c.before ts) := by
    obtain ⟨t, us, rfl, ht⟩ := hstarts
    rw [declaration_of_cons n (c.before_rest_cons t us), ht]
    rfl
  rw [hrun]
  exact hs n c hend hleaves hlen

theorem declarations_next {ss : List Stmt} (h : Declarations ts ss) {c : Cursor}
    (hnext : c.Next fun kind => kind ≠ .kwElse) :
    (c.before ts).Next fun kind => kind ≠ .kwElse := by
  cases h with
  | nil => exact hnext
  | cons hs _ =>
      obtain ⟨t, us, rfl, ht⟩ := declaration_starts hs
      exact Cursor.next_before_cons.mpr ht.2

theorem reads_nil : ReadsDeclarations [] [] :=
  fun n _ _ hcloses _ => items_of_closes n hcloses

theorem reads_cons {s : Stmt} {ss : List Stmt} (hfirst : Declaration ts s)
    (hrest : Declarations us ss) (hs : ReadsDeclaration ts s) (hss : ReadsDeclarations us ss) :
    ReadsDeclarations (ts ++ us) (s :: ss) := by
  intro n c hend hcloses hlen
  rw [List.length_append] at hlen
  have hnext : c.Next fun kind => kind ≠ .kwElse := by
    intro t ht hk
    obtain ⟨rest, hc⟩ : ∃ rest, c.rest = t :: rest := List.head?_eq_some_iff.mp ht
    rw [Cursor.peek_of_cons hc] at hcloses
    simp [closes, Token.isEnd, hk] at hcloses
  have hopen : closes (c.before (ts ++ us)).peek = false := by
    obtain ⟨t, ts', rfl, ht⟩ := declaration_starts hfirst
    rw [List.cons_append, Cursor.peek_of_cons (c.before_rest_cons t _)]
    exact ht.1
  have hitem : declaration n (c.before (ts ++ us)) = .ok s (c.before us) := by
    rw [Cursor.before_append]
    exact hs n _ hend (fun _ => declarations_next hrest hnext) (by omega)
  rw [items_of_not_closes n (c := c.before (ts ++ us)) hend hopen, bind_of_ok (inner_of_ok hitem)]
  show (items n >>= _) (c.before us) = _
  rw [bind_of_ok (hss n c hend hcloses (by omega))]
  rfl

end Constructors

mutual

theorem readsDeclaration : {ts : List Token} → {s : Stmt} → Declaration ts s →
    ReadsDeclaration ts s
  | _, _, .uninitialized hkeyword hname hsemicolon => reads_uninitialized hkeyword hname hsemicolon
  | _, _, .initialized hkeyword hname heq hinit hsemicolon =>
      reads_initialized hkeyword hname heq hinit hsemicolon
  | _, _, .statement hs =>
      have ⟨t, us, hts, ht, _⟩ := statement_starts hs
      reads_statement ⟨t, us, hts, ht⟩ (readsStatement hs)

theorem readsStatement : {ts : List Token} → {s : Stmt} → Statement ts s → ReadsStatement ts s
  | _, _, .print hkeyword he hsemicolon => reads_print hkeyword he hsemicolon
  | _, _, .block hl hss hr => reads_block hl (readsDeclarations hss) hr
  | _, _, .expression he hsemicolon => reads_evaluated he hsemicolon
  | _, _, .branch hkeyword hl hcond hr hyes =>
      reads_branch hkeyword hl hcond hr (readsStatement hyes)
  | _, _, .branchElse hkeyword hl hcond hr hyes hclosed hother hno =>
      reads_branchElse hkeyword hl hcond hr (readsStatement hyes) hclosed hother
        (statement_ne_absent hno) (readsStatement hno)

theorem readsDeclarations : {ts : List Token} → {ss : List Stmt} → Declarations ts ss →
    ReadsDeclarations ts ss
  | _, _, .nil => reads_nil
  | _, _, .cons hs hss => reads_cons hs hss (readsDeclaration hs) (readsDeclarations hss)

end

/-- A list of declarations is parsed to its tree, and nothing is reported. -/
theorem program_complete (limit : Nat) {c : Cursor} (hend : c.finish.isEnd) (hc : c.rest = []) :
    {ts : List Token} → {ss : List Stmt} → Declarations ts ss → ts.length ≤ limit →
    program limit (c.before ts) = (ss, c)
  | _, _, .nil, _ => program_of_nil limit hc
  | _, _, @Declarations.cons ts us s ss hs hss, hlen => by
      rw [List.length_append] at hlen
      have hnext : c.Next fun kind => kind ≠ .kwElse := by simp [Cursor.Next, hc]
      have hitem : declaration limit (c.before (ts ++ us)) = .ok s (c.before us) := by
        rw [Cursor.before_append]
        exact readsDeclaration hs limit _ hend (fun _ => declarations_next hss hnext) (by omega)
      have hne : (c.before (ts ++ us)).rest ≠ [] := by
        obtain ⟨t, ts', rfl, -⟩ := declaration_starts hs
        simp [Cursor.before]
      rw [program_of_ok limit (c := c.before (ts ++ us)) hend hne hitem,
        program_complete limit hend hc hss (by omega)]

theorem parse_of_program {limit : Nat} {body : List Token} {finish : Token} {ss : List Stmt}
    (hbody : ∀ t ∈ body, t.isEnd = false) (hfinish : finish.isEnd)
    (h : program limit (Cursor.before ⟨[], finish, []⟩ body) = (ss, ⟨[], finish, []⟩)) :
    parse (body ++ [finish]) limit = ⟨ss, []⟩ := by
  rw [Cursor.before, List.append_nil] at h
  rw [parse_eq, start_of_body hbody hfinish, h]
  rfl

theorem parse_complete {limit : Nat} {body : List Token} {finish : Token} {ss : List Stmt}
    (hbody : ∀ t ∈ body, t.isEnd = false) (hfinish : finish.isEnd) (h : Declarations body ss)
    (hlen : body.length ≤ limit) : parse (body ++ [finish]) limit = ⟨ss, []⟩ :=
  parse_of_program hbody hfinish (program_complete limit hfinish rfl h hlen)

end Parse

end Scribe
