import Mathlib
import Scribe.Machine.Basic

/-!
# Lines that correspond

Two texts that read the same may stand on different lines. Their tokens, trees and diagnostics then
differ in their lines alone, and a relation `L` says which lines correspond. Trees that correspond
are moreover whole: no required position is empty, and operators are those of the grammar. With
`L` inside equality, this says something about the lines of a single text.
-/

namespace Scribe

/-- A script leads to none of these causes: trees built by hand do. -/
def RuntimeCause.isInternal : RuntimeCause → Bool
  | .missingStatement | .missingExpression | .unknownUnary _ | .unknownBinary _ => true
  | _ => false

def Cause.isInternal : Cause → Bool
  | .lexical _ | .syntactic _ => false
  | .runtime cause => cause.isInternal
  | .told _ => true

def TokenKind.isSign (kind : TokenKind) : Bool := kind == .bang || kind == .minus

section

variable (L : Int → Int → Prop)

structure Token.Alike (t u : Token) : Prop where
  kind : t.kind = u.kind
  lexeme : t.lexeme = u.lexeme
  literal : t.literal = u.literal
  line : L t.line u.line

/-- Diagnostics of one phase, with one cause that a script can lead to. -/
structure Diagnostic.Alike (phase : Phase) (d e : Diagnostic) : Prop where
  phase : d.phase = phase ∧ e.phase = phase
  place : d.place = e.place
  cause : d.cause = e.cause
  line : L d.line e.line
  scripted : d.cause.isInternal = false

inductive Expr.Alike : Expr → Expr → Prop
  | literal (v : Value) {a b : Int} (hline : L a b) : Alike (.literal v a) (.literal v b)
  | reference {t u : Token} (hname : t.Alike L u) : Alike (.reference t) (.reference u)
  | assign {t u : Token} {e f : Expr} (hname : t.Alike L u) (hvalue : Alike e f) :
      Alike (.assign t e) (.assign u f)
  | unary {t u : Token} {e f : Expr} (hop : t.Alike L u) (hsign : t.kind.isSign = true)
      (hoperand : Alike e f) : Alike (.unary t e) (.unary u f)
  | binary {t u : Token} {e f e' f' : Expr} {tier : Parse.Tier} (hleft : Alike e f)
      (hop : t.Alike L u) (htier : tier.operators t.kind = true) (hright : Alike e' f') :
      Alike (.binary e t e') (.binary f u f')
  | array {t u : Token} {es fs : List Expr} (hbracket : t.Alike L u)
      (helems : List.Forall₂ Alike es fs) : Alike (.array t es) (.array u fs)

inductive Stmt.Alike : Stmt → Stmt → Prop
  | print {t u : Token} {e f : Expr} (hkeyword : t.Alike L u) (hexpr : e.Alike L f) :
      Alike (.print t e) (.print u f)
  | expression {e f : Expr} (hexpr : e.Alike L f) : Alike (.expression e) (.expression f)
  | declared {t u : Token} (hname : t.Alike L u) : Alike (.declare t .absent) (.declare u .absent)
  | initialized {t u : Token} {e f : Expr} (hname : t.Alike L u) (hinit : e.Alike L f) :
      Alike (.declare t e) (.declare u f)
  | block {t u : Token} {ss rs : List Stmt} (hbrace : t.Alike L u)
      (hstmts : List.Forall₂ Alike ss rs) : Alike (.block t ss) (.block u rs)
  | chosen {t u : Token} {e f : Expr} {s r : Stmt} (hkeyword : t.Alike L u)
      (hcond : e.Alike L f) (hyes : Alike s r) :
      Alike (.branch t e s .absent) (.branch u f r .absent)
  | branch {t u : Token} {e f : Expr} {s r s' r' : Stmt} (hkeyword : t.Alike L u)
      (hcond : e.Alike L f) (hyes : Alike s r) (hno : Alike s' r') :
      Alike (.branch t e s s') (.branch u f r r')

end

variable {L : Int → Int → Prop}

namespace Token.Alike

variable {t u : Token}

theorem isEnd (h : t.Alike L u) : t.isEnd = u.isEnd := by
  rw [Token.isEnd, Token.isEnd, h.kind]

theorem placeOf (h : t.Alike L u) : Diagnostic.placeOf t = Diagnostic.placeOf u := by
  rw [Diagnostic.placeOf, Diagnostic.placeOf, h.isEnd, h.lexeme]

end Token.Alike

namespace Diagnostic.Alike

theorem lexical {a b : Int} (hline : L a b) (cause : LexicalCause) :
    Diagnostic.Alike L .lexical (Diagnostic.lexical a cause) (Diagnostic.lexical b cause) :=
  ⟨⟨rfl, rfl⟩, rfl, rfl, hline, rfl⟩

theorem syntactic {t u : Token} (h : t.Alike L u) (cause : SyntaxCause) :
    Diagnostic.Alike L .syntactic (Diagnostic.syntactic t cause)
      (Diagnostic.syntactic u cause) :=
  ⟨⟨rfl, rfl⟩, h.placeOf, rfl, h.line, rfl⟩

theorem runtime {a b : Int} (hline : L a b) {cause : RuntimeCause}
    (hcause : cause.isInternal = false) :
    Diagnostic.Alike L .runtime (Diagnostic.runtime a cause) (Diagnostic.runtime b cause) :=
  ⟨⟨rfl, rfl⟩, rfl, rfl, hline, hcause⟩

end Diagnostic.Alike

theorem Expr.Alike.line {e f : Expr} (h : e.Alike L f) : L e.line f.line := by
  cases h with
  | literal v hline => exact hline
  | reference hname => exact hname.line
  | assign hname => exact hname.line
  | unary hop => exact hop.line
  | binary _ hop => exact hop.line
  | array hbracket => exact hbracket.line

theorem Expr.Alike.ne_absent {e f : Expr} (h : e.Alike L f) : e ≠ .absent ∧ f ≠ .absent := by
  cases h <;> exact ⟨nofun, nofun⟩

theorem Stmt.Alike.isAbsent {s r : Stmt} (h : s.Alike L r) :
    s.isAbsent = false ∧ r.isAbsent = false := by
  cases h <;> exact ⟨rfl, rfl⟩

end Scribe
