import Scribe.Proofs.Parse.Production

/-!
# The grammar of scripts

    program        → declaration*
    declaration    → ("let" | "var") IDENTIFIER ("=" expression)? ";" | statement
    statement      → "print" expression ";" | "{" declaration* "}" | expression ";"
                   | "if" "(" expression ")" statement ("else" statement)?
    expression     → equality ("=" expression)?
    equality       → comparison (("!=" | "==") comparison)*
    comparison     → addition ((">" | ">=" | "<" | "<=") addition)*
    addition       → multiplication (("-" | "+") multiplication)*
    multiplication → unary (("/" | "*") unary)*
    unary          → ("!" | "-") unary | primary
    primary        → NUMBER | STRING | "true" | "false" | "nil" | IDENTIFIER
                   | "(" expression ")" | "[" (expression ("," expression)*)? "]"

Each relation below gives the tokens of a derivation and its tree. Operators of one tier group to
the left, assignments to the right; the tree of what is assigned to is a name; and an `else`
belongs to the nearest `if` that is still open.
-/

namespace Scribe

namespace Grammar

open Parse (Tier)

/-- How tightly an expression binds. -/
inductive Rank where
  | primary
  | unary
  | tier (t : Tier)
  | expression

def operandRank : Tier → Rank
  | .factor => .unary
  | .term => .tier .factor
  | .comparison => .tier .term
  | .equality => .tier .comparison

def operatorsOf : Tier → List TokenKind
  | .factor => [.slash, .star]
  | .term => [.minus, .plus]
  | .comparison => [.greater, .greaterEqual, .less, .lessEqual]
  | .equality => [.bangEqual, .equalEqual]

/-- The value that a token denotes by itself. -/
inductive Denotes : Token → Value → Prop
  | no {t : Token} (h : t.kind = .kwFalse) : Denotes t (.boolean false)
  | yes {t : Token} (h : t.kind = .kwTrue) : Denotes t (.boolean true)
  | null {t : Token} (h : t.kind = .kwNil) : Denotes t .null
  | number {t : Token} (h : t.kind = .number) : Denotes t t.literal
  | string {t : Token} (h : t.kind = .string) : Denotes t t.literal

mutual

/-- `Expression rank ts e`: the tokens `ts` form an expression of that rank, with tree `e`. -/
inductive Expression : Rank → List Token → Expr → Prop
  | constant {t : Token} {v : Value} (h : Denotes t v) :
      Expression .primary [t] (.literal v t.line)
  | name {t : Token} (h : t.kind = .identifier) : Expression .primary [t] (.reference t)
  | group {l r : Token} {ts : List Token} {e : Expr} (hl : l.kind = .leftParen)
      (he : Expression .expression ts e) (hr : r.kind = .rightParen) :
      Expression .primary (l :: ts ++ [r]) e
  | emptyArray {l r : Token} (hl : l.kind = .leftBracket) (hr : r.kind = .rightBracket) :
      Expression .primary [l, r] (.array l [])
  | array {l r : Token} {ts : List Token} {es : List Expr} (hl : l.kind = .leftBracket)
      (hes : Elements ts es) (hr : r.kind = .rightBracket) :
      Expression .primary (l :: ts ++ [r]) (.array l es)
  | primary {ts : List Token} {e : Expr} (he : Expression .primary ts e) : Expression .unary ts e
  | unary {op : Token} {ts : List Token} {e : Expr} (hop : op.kind = .bang ∨ op.kind = .minus)
      (he : Expression .unary ts e) : Expression .unary (op :: ts) (.unary op e)
  | operand {tier : Tier} {ts : List Token} {e : Expr} (he : Expression (operandRank tier) ts e) :
      Expression (.tier tier) ts e
  | binary {tier : Tier} {op : Token} {ts us : List Token} {left right : Expr}
      (hleft : Expression (.tier tier) ts left) (hop : op.kind ∈ operatorsOf tier)
      (hright : Expression (operandRank tier) us right) :
      Expression (.tier tier) (ts ++ op :: us) (.binary left op right)
  | equality {ts : List Token} {e : Expr} (he : Expression (.tier .equality) ts e) :
      Expression .expression ts e
  | assign {name equals : Token} {ts us : List Token} {value : Expr}
      (htarget : Expression (.tier .equality) ts (.reference name)) (heq : equals.kind = .equal)
      (hvalue : Expression .expression us value) :
      Expression .expression (ts ++ equals :: us) (.assign name value)

inductive Elements : List Token → List Expr → Prop
  | last {ts : List Token} {e : Expr} (he : Expression .expression ts e) : Elements ts [e]
  | more {comma : Token} {ts us : List Token} {e : Expr} {es : List Expr}
      (he : Expression .expression ts e) (hcomma : comma.kind = .comma) (hes : Elements us es) :
      Elements (ts ++ comma :: us) (e :: es)

end

/-- Whether a statement ends in an `if` without `else`, to which an `else` behind it would
belong. -/
def endsOpen : Stmt → Bool
  | .branch _ _ _ .absent => true
  | .branch _ _ _ no => endsOpen no
  | _ => false

mutual

inductive Declaration : List Token → Stmt → Prop
  | uninitialized {keyword name semicolon : Token}
      (hkeyword : keyword.kind = .kwLet ∨ keyword.kind = .kwVar) (hname : name.kind = .identifier)
      (hsemicolon : semicolon.kind = .semicolon) :
      Declaration [keyword, name, semicolon] (.declare name .absent)
  | initialized {keyword name equals semicolon : Token} {ts : List Token} {init : Expr}
      (hkeyword : keyword.kind = .kwLet ∨ keyword.kind = .kwVar) (hname : name.kind = .identifier)
      (heq : equals.kind = .equal) (hinit : Expression .expression ts init)
      (hsemicolon : semicolon.kind = .semicolon) :
      Declaration (keyword :: name :: equals :: ts ++ [semicolon]) (.declare name init)
  | statement {ts : List Token} {s : Stmt} (hs : Statement ts s) : Declaration ts s

inductive Statement : List Token → Stmt → Prop
  | print {keyword semicolon : Token} {ts : List Token} {e : Expr}
      (hkeyword : keyword.kind = .kwPrint) (he : Expression .expression ts e)
      (hsemicolon : semicolon.kind = .semicolon) :
      Statement (keyword :: ts ++ [semicolon]) (.print keyword e)
  | block {l r : Token} {ts : List Token} {ss : List Stmt} (hl : l.kind = .leftBrace)
      (hss : Declarations ts ss) (hr : r.kind = .rightBrace) :
      Statement (l :: ts ++ [r]) (.block l ss)
  | expression {semicolon : Token} {ts : List Token} {e : Expr}
      (he : Expression .expression ts e) (hsemicolon : semicolon.kind = .semicolon) :
      Statement (ts ++ [semicolon]) (.expression e)
  | branch {keyword l r : Token} {ts us : List Token} {cond : Expr} {yes : Stmt}
      (hkeyword : keyword.kind = .kwIf) (hl : l.kind = .leftParen)
      (hcond : Expression .expression ts cond) (hr : r.kind = .rightParen)
      (hyes : Statement us yes) :
      Statement (keyword :: l :: ts ++ r :: us) (.branch keyword cond yes .absent)
  | branchElse {keyword l r other : Token} {ts us vs : List Token} {cond : Expr} {yes no : Stmt}
      (hkeyword : keyword.kind = .kwIf) (hl : l.kind = .leftParen)
      (hcond : Expression .expression ts cond) (hr : r.kind = .rightParen)
      (hyes : Statement us yes) (hclosed : endsOpen yes = false) (hother : other.kind = .kwElse)
      (hno : Statement vs no) :
      Statement (keyword :: l :: ts ++ r :: us ++ other :: vs) (.branch keyword cond yes no)

inductive Declarations : List Token → List Stmt → Prop
  | nil : Declarations [] []
  | cons {ts us : List Token} {s : Stmt} {ss : List Stmt} (hs : Declaration ts s)
      (hss : Declarations us ss) : Declarations (ts ++ us) (s :: ss)

end

end Grammar

namespace Parse

open Grammar

theorem opening_eq_sign {t : Token} : opening t = .sign ↔ t.kind = .bang ∨ t.kind = .minus := by
  cases hk : t.kind <;> simp [opening, hk]

theorem opening_eq_name {t : Token} : opening t = .name ↔ t.kind = .identifier := by
  cases hk : t.kind <;> simp [opening, hk]

theorem opening_eq_group {t : Token} : opening t = .group ↔ t.kind = .leftParen := by
  cases hk : t.kind <;> simp [opening, hk]

theorem opening_eq_array {t : Token} : opening t = .array ↔ t.kind = .leftBracket := by
  cases hk : t.kind <;> simp [opening, hk]

theorem opening_eq_constant {t : Token} {v : Value} :
    opening t = .constant v ↔ Denotes t v := by
  constructor
  · intro h
    cases hk : t.kind <;> simp only [opening, hk, reduceCtorEq, Opening.constant.injEq] at h <;>
      subst h
    · exact .string hk
    · exact .number hk
    · exact .no hk
    · exact .null hk
    · exact .yes hk
  · rintro (hk | hk | hk | hk | hk) <;> simp [opening, hk]

theorem operators_eq_true {tier : Tier} {kind : TokenKind} :
    tier.operators kind = true ↔ kind ∈ operatorsOf tier := by
  cases tier <;> simp [Tier.operators, operatorsOf, or_assoc]

theorem introduces_eq_true {kind : TokenKind} :
    introduces kind = true ↔ kind = .kwLet ∨ kind = .kwVar := by
  simp [introduces]

theorem statement_ne_absent {ts : List Token} {s : Stmt} (h : Statement ts s) : s ≠ .absent := by
  cases h <;> simp

theorem endsOpen_branch (keyword : Token) (cond : Expr) (yes : Stmt) {no : Stmt}
    (h : no ≠ .absent) : endsOpen (.branch keyword cond yes no) = endsOpen no := by
  cases no with
  | absent => exact absurd rfl h
  | _ => rfl

/-! ## Where derivations start -/

theorem starts_with {t : Token} {o : Opening} (us : List Token) (ht : opening t = o)
    (ho : o ≠ .other) : ∃ t' us', t :: us = t' :: us' ∧ opening t' ≠ .other :=
  ⟨t, us, rfl, ht ▸ ho⟩

theorem expression_starts : {r : Rank} → {ts : List Token} → {e : Expr} → Expression r ts e →
    ∃ t us, ts = t :: us ∧ opening t ≠ .other
  | _, _, _, .constant h => starts_with _ (opening_eq_constant.mpr h) Opening.noConfusion
  | _, _, _, .name h => starts_with _ (opening_eq_name.mpr h) Opening.noConfusion
  | _, _, _, .group hl _ _ => starts_with _ (opening_eq_group.mpr hl) Opening.noConfusion
  | _, _, _, .emptyArray hl _ => starts_with _ (opening_eq_array.mpr hl) Opening.noConfusion
  | _, _, _, .array hl _ _ => starts_with _ (opening_eq_array.mpr hl) Opening.noConfusion
  | _, _, _, .primary he => expression_starts he
  | _, _, _, .unary hop _ => starts_with _ (opening_eq_sign.mpr hop) Opening.noConfusion
  | _, _, _, .operand he => expression_starts he
  | _, _, _, .binary hleft _ _ => by
      obtain ⟨t, us, rfl, ht⟩ := expression_starts hleft
      exact ⟨t, _, rfl, ht⟩
  | _, _, _, .equality he => expression_starts he
  | _, _, _, .assign htarget _ _ => by
      obtain ⟨t, us, rfl, ht⟩ := expression_starts htarget
      exact ⟨t, _, rfl, ht⟩

theorem expression_length {r : Rank} {ts : List Token} {e : Expr} (h : Expression r ts e) :
    0 < ts.length := by
  obtain ⟨t, us, rfl, -⟩ := expression_starts h
  exact Nat.succ_pos _

end Parse

end Scribe
