import Scribe.Proofs.Parse.Complete
import Scribe.Proofs.Parse.Sound

/-!
# The language of the parser

Parsing without a report and being derivable are the same thing, as long as there are levels
enough.
-/

namespace Scribe

namespace Parse

open Grammar

/-- A text has one tree. -/
theorem declarations_unique {ts : List Token} {ss ss' : List Stmt} (h : Declarations ts ss)
    (h' : Declarations ts ss') : ss = ss' := by
  have hend : (Token.endOfText 0).isEnd = true := rfl
  have hrun := program_complete ts.length (c := ⟨[], Token.endOfText 0, []⟩) hend rfl h
    (Nat.le_refl _)
  have hrun' := program_complete ts.length (c := ⟨[], Token.endOfText 0, []⟩) hend rfl h'
    (Nat.le_refl _)
  rw [hrun] at hrun'
  exact congrArg Prod.fst hrun'

/-- What parses without a report is derivable and its tree is returned; what is derivable parses
without a report to its tree, if two more levels may be used than there are tokens. -/
theorem parse_iff_derivable (limit : Nat) {body : List Token} {finish : Token}
    (hbody : ∀ t ∈ body, t.isEnd = false) (hfinish : finish.isEnd) :
    ((parse (body ++ [finish]) limit).reports = [] →
      Declarations body (parse (body ++ [finish]) limit).stmts) ∧
    (∀ stmts, Declarations body stmts → (body ++ [finish]).length + 2 ≤ limit →
      parse (body ++ [finish]) limit = ⟨stmts, []⟩) := by
  constructor
  · intro hreports
    rw [parse_eq, start_of_body hbody hfinish] at hreports ⊢
    exact program_sound limit (c := ⟨body, finish, []⟩) hfinish
      (List.reverse_eq_nil_iff.mp hreports)
  · intro stmts hstmts hlen
    rw [List.length_append] at hlen
    exact parse_complete hbody hfinish hstmts (by omega)

/-- In `if (a) if (b) a; else b;`, the `else` belongs to the second `if`. -/
theorem dangling_else_parsed :
    let t (kind : TokenKind) (name : Bytes) : Token := ⟨kind, name, .null, 1⟩
    let a := t .identifier [97]
    let b := t .identifier [98]
    parse ([t .kwIf [], t .leftParen [], a, t .rightParen [], t .kwIf [], t .leftParen [], b,
        t .rightParen [], a, t .semicolon [], t .kwElse [], b, t .semicolon []] ++
        [Token.endOfText 1]) 16 =
      ⟨[.branch (t .kwIf []) (.reference a)
        (.branch (t .kwIf []) (.reference b) (.expression (.reference a))
          (.expression (.reference b))) .absent], []⟩ := by
  intro t a b
  have hname : ∀ name, Expression .expression [t .identifier name]
      (.reference (t .identifier name)) := fun name =>
    .equality (.operand (.operand (.operand (.operand (.primary (.name rfl))))))
  refine (parse_iff_derivable 16 (by decide) rfl).2 _ ?_ (by decide)
  refine .cons (.statement (.branch rfl rfl (hname _) rfl
    (.branchElse rfl rfl (hname _) rfl (.expression (hname _) rfl) rfl rfl
      (.expression (hname _) rfl)))) .nil

end Parse

end Scribe
