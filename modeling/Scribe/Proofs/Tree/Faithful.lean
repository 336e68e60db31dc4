import Scribe.Proofs.Tree.Rendering

/-!
# The prefix form tells the tree

Statements are read from their phrases, too, and the phrases from the lines that are written. So two
texts whose statements are written alike have the same statements, apart from lines.
-/

namespace Scribe

namespace Stmt

mutual

def constants : Stmt → List Value
  | .absent => []
  | .print _ e => e.constants
  | .expression e => e.constants
  | .declare _ init => init.constants
  | .block _ stmts => constantsOf stmts
  | .branch _ cond yes no => cond.constants ++ (constants yes ++ constants no)

def constantsOf : List Stmt → List Value
  | [] => []
  | s :: ss => constants s ++ constantsOf ss

end

mutual

def unlined : Stmt → Stmt
  | .absent => .absent
  | .print keyword e => .print keyword.unlined e.unlined
  | .expression e => .expression e.unlined
  | .declare name init => .declare name.unlined init.unlined
  | .block brace stmts => .block brace.unlined (unlinedAll stmts)
  | .branch keyword cond yes no =>
      .branch keyword.unlined cond.unlined (unlined yes) (unlined no)

def unlinedAll : List Stmt → List Stmt
  | [] => []
  | s :: ss => unlined s :: unlinedAll ss

end

mutual

def phrase : Stmt → Phrase
  | .absent => .word []
  | .print _ e => .list (utf8 "print") [e.phrase]
  | .expression e => .list (utf8 "expr") [e.phrase]
  | .declare name init =>
      .list (utf8 "let") (.word name.lexeme :: if init.isAbsent then [] else [init.phrase])
  | .block _ stmts => .list (utf8 "block") (phrases stmts)
  | .branch _ cond yes no =>
      .list (utf8 "if") (cond.phrase :: phrase yes :: if no.isAbsent then [] else [phrase no])

def phrases : List Stmt → List Phrase
  | [] => []
  | s :: ss => phrase s :: phrases ss

end

/-- The statement of a list with a given first word. The other parts are read in both ways. -/
def ofParts (head : Bytes) (exprs : List Expr) (stmts : List Stmt) : Stmt :=
  if head = utf8 "block" then .block (Token.ofText (utf8 "\x7b")) stmts
  else
    let keyword := Token.ofText head
    match keyword.kind, exprs, stmts with
    | .kwPrint, [e], _ => .print keyword e
    | .identifier, [e], _ => .expression e
    | .kwLet, [.reference name], _ => .declare name .absent
    | .kwLet, [.reference name, init], _ => .declare name init
    | .kwIf, cond :: _, [_, yes] => .branch keyword cond yes .absent
    | .kwIf, cond :: _, [_, yes, no] => .branch keyword cond yes no
    | _, _, _ => .absent

end Stmt

namespace Phrase

mutual

/-- The statement that a phrase renders. -/
def stmt : Phrase → Stmt
  | .list head parts => .ofParts head (exprs parts) (stmts parts)
  | _ => .absent

def stmts : List Phrase → List Stmt
  | [] => []
  | p :: ps => stmt p :: stmts ps

end

end Phrase

open Grammar Parse Phrase

theorem Expr.MadeOf.not_absent {T : Token → Prop} {e : Expr} (h : e.MadeOf T) :
    e.isAbsent = false := by
  cases h <;> rfl

theorem Stmt.MadeOf.not_absent {T : Token → Prop} {s : Stmt} (h : s.MadeOf T) :
    s.isAbsent = false := by
  cases h <;> rfl

namespace Stmt

theorem constantsOf_eq (ss : List Stmt) : constantsOf ss = ss.flatMap constants :=
  eq_flatMap rfl (fun _ _ => rfl) ss

theorem unlinedAll_eq (ss : List Stmt) : unlinedAll ss = ss.map unlined :=
  eq_map rfl (fun _ _ => rfl) ss

theorem phrases_eq (ss : List Stmt) : phrases ss = ss.map phrase :=
  eq_map rfl (fun _ _ => rfl) ss

theorem stmts_eq (ps : List Phrase) : Phrase.stmts ps = ps.map Phrase.stmt :=
  eq_map rfl (fun _ _ => rfl) ps

mutual

theorem formOnto_eq : (s : Stmt) → (tail : Bytes) → s.formOnto tail = s.phrase.onto tail
  | .absent, _ => rfl
  | .print _ e, tail => by
      have hhead : utf8 "(print " = 0x28 :: utf8 "print" ++ [Bytes.space] := rfl
      simp [formOnto, phrase, Phrase.onto, Phrase.partsOnto, e.formOnto_eq, hhead]
  | .expression e, tail => by
      have hhead : utf8 "(expr " = 0x28 :: utf8 "expr" ++ [Bytes.space] := rfl
      simp [formOnto, phrase, Phrase.onto, Phrase.partsOnto, e.formOnto_eq, hhead]
  | .declare name init, tail => by
      have hhead : utf8 "(let " = 0x28 :: utf8 "let" ++ [Bytes.space] := rfl
      cases hinit : init.isAbsent <;>
        simp [formOnto, phrase, Phrase.onto, Phrase.partsOnto, init.formOnto_eq, hhead, hinit]
  | .block _ stmts, tail => by
      have hhead : utf8 "(block" = 0x28 :: utf8 "block" := rfl
      simp [formOnto, phrase, Phrase.onto, formsOnto_eq stmts, hhead]
  | .branch _ cond yes no, tail => by
      have hhead : utf8 "(if " = 0x28 :: utf8 "if" ++ [Bytes.space] := rfl
      cases hno : no.isAbsent <;>
        simp [formOnto, phrase, Phrase.onto, Phrase.partsOnto, cond.formOnto_eq, formOnto_eq yes,
          formOnto_eq no, hhead, hno]

theorem formsOnto_eq : (ss : List Stmt) → (tail : Bytes) →
    formsOnto ss tail = Phrase.partsOnto (phrases ss) tail
  | [], _ => rfl
  | s :: ss, tail => by
      simp [formsOnto, phrases, Phrase.partsOnto, formOnto_eq s, formsOnto_eq ss]

end

/-! ## Statements are read from their phrases -/

theorem MadeOf.readable {s : Stmt} (h : s.MadeOf Token.Spelled)
    (hfinite : ∀ v ∈ s.constants, v.isFinite = true) : s.phrase.Readable := by
  induction h with
  | print _ _ he =>
      refine .list ⟨by decide, by decide +kernel⟩ ?_
      simpa using he.readable hfinite
  | expression he =>
      refine .list ⟨by decide, by decide +kernel⟩ ?_
      simpa using he.readable hfinite
  | uninitialized ht hkind =>
      refine .list ⟨by decide, by decide +kernel⟩ ?_
      simpa [Expr.isAbsent] using Readable.word (Expr.bare_name ht hkind)
  | initialized ht hkind hinit =>
      refine .list ⟨by decide, by decide +kernel⟩ ?_
      simpa [hinit.not_absent] using
        ⟨Readable.word (Expr.bare_name ht hkind), hinit.readable hfinite⟩
  | block _ _ _ ih =>
      rw [constants, constantsOf_eq] at hfinite
      refine .list ⟨by decide, by decide +kernel⟩ ?_
      rw [phrases_eq, List.forall_mem_map]
      intro s hs
      exact ih s hs fun v hv => hfinite v (List.mem_flatMap.mpr ⟨s, hs, hv⟩)
  | branch _ _ hcond hyes ih =>
      obtain ⟨hfcond, hfbranches⟩ := List.forall_mem_append.mp hfinite
      obtain ⟨hfyes, -⟩ := List.forall_mem_append.mp hfbranches
      refine .list ⟨by decide, by decide +kernel⟩ ?_
      simpa [Stmt.isAbsent] using ⟨hcond.readable hfcond, ih hfyes⟩
  | branchElse _ _ hcond _ hno ihyes ihno =>
      obtain ⟨hfcond, hfbranches⟩ := List.forall_mem_append.mp hfinite
      obtain ⟨hfyes, hfno⟩ := List.forall_mem_append.mp hfbranches
      refine .list ⟨by decide, by decide +kernel⟩ ?_
      simpa [hno.not_absent] using ⟨hcond.readable hfcond, ihyes hfyes, ihno hfno⟩

/-- A statement is read from its phrase. -/
theorem MadeOf.stmt_phrase {s : Stmt} (h : s.MadeOf Token.Spelled)
    (hfinite : ∀ v ∈ s.constants, v.isFinite = true) : s.phrase.stmt = s.unlined := by
  induction h with
  | @print t e ht hkind he =>
      have hhead : Token.ofText (utf8 "print") = t.unlined := ht.ofText_fixed hkind
        (by decide) (by decide) (by decide)
      have hkeyword : t.unlined.kind = .kwPrint := hkind
      simp only [phrase, Phrase.stmt, Phrase.exprs, he.expr_phrase hfinite, unlined, ofParts, hhead,
        hkeyword]
      rw [if_neg (by decide)]
  | expression he =>
      have hhead : (Token.ofText (utf8 "expr")).kind = .identifier := by decide +kernel
      simp only [phrase, Phrase.stmt, Phrase.exprs, he.expr_phrase hfinite, unlined, ofParts, hhead]
      rw [if_neg (by decide)]
  | @uninitialized name ht hkind =>
      have hhead : (Token.ofText (utf8 "let")).kind = .kwLet := by decide +kernel
      simp only [phrase, Expr.isAbsent, if_true, Phrase.stmt, Phrase.exprs, Phrase.expr,
        Expr.ofWord_name ht hkind, unlined, Expr.unlined, ofParts, hhead]
      rw [if_neg (by decide)]
  | @initialized name init ht hkind hinit =>
      have hhead : (Token.ofText (utf8 "let")).kind = .kwLet := by decide +kernel
      simp only [phrase, hinit.not_absent, Bool.false_eq_true, if_false, Phrase.stmt, Phrase.exprs,
        Phrase.expr, Expr.ofWord_name ht hkind, hinit.expr_phrase hfinite, unlined, ofParts, hhead]
      rw [if_neg (by decide)]
  | @block brace stmts ht hkind _ ih =>
      have hbrace : Token.ofText (utf8 "\x7b") = brace.unlined := ht.ofText_fixed hkind
        (by decide) (by decide) (by decide)
      rw [constants, constantsOf_eq] at hfinite
      simp only [phrase, Phrase.stmt, ofParts, if_true, hbrace, unlined, phrases_eq, stmts_eq,
        unlinedAll_eq, List.map_map]
      congr 1
      apply List.map_congr_left
      intro s hs
      exact ih s hs fun v hv => hfinite v (List.mem_flatMap.mpr ⟨s, hs, hv⟩)
  | @branch t cond yes ht hkind hcond _ ih =>
      have hhead : Token.ofText (utf8 "if") = t.unlined := ht.ofText_fixed hkind
        (by decide) (by decide) (by decide)
      have hkeyword : t.unlined.kind = .kwIf := hkind
      obtain ⟨hfcond, hfbranches⟩ := List.forall_mem_append.mp hfinite
      obtain ⟨hfyes, -⟩ := List.forall_mem_append.mp hfbranches
      simp only [phrase, Stmt.isAbsent, if_true, Phrase.stmt, Phrase.exprs, Phrase.stmts,
        hcond.expr_phrase hfcond, ih hfyes, unlined, ofParts, hhead, hkeyword]
      rw [if_neg (by decide)]
  | @branchElse t cond yes no ht hkind hcond _ hno ihyes ihno =>
      have hhead : Token.ofText (utf8 "if") = t.unlined := ht.ofText_fixed hkind
        (by decide) (by decide) (by decide)
      have hkeyword : t.unlined.kind = .kwIf := hkind
      obtain ⟨hfcond, hfbranches⟩ := List.forall_mem_append.mp hfinite
      obtain ⟨hfyes, hfno⟩ := List.forall_mem_append.mp hfbranches
      simp only [phrase, hno.not_absent, Bool.false_eq_true, if_false, Phrase.stmt, Phrase.exprs,
        Phrase.stmts, hcond.expr_phrase hfcond, ihyes hfyes, ihno hfno, unlined, ofParts, hhead,
        hkeyword]
      rw [if_neg (by decide)]

end Stmt

/-! ## Whole texts -/

/-- A sink that refuses nothing holds all that was written. -/
theorem Sink.writeEach_contents (texts : List Bytes) {s : Sink} (h : s.refusal = fun _ => none) :
    (Sink.writeEach texts s).2.contents = s.contents ++ texts.flatten := by
  induction texts generalizing s with
  | nil => simp [Sink.writeEach]
  | cons text texts ih =>
      have hwrite : s.write text =
          (.ok (), { s with offered := text :: s.offered, taken := text :: s.taken }) := by
        simp [Sink.write, h]
      simp only [Sink.writeEach, hwrite]
      refine (ih ?_).trans ?_
      · exact h
      · simp [Sink.contents]

/-- Statements in native form are the lines of their phrases. -/
theorem Stmt.writeAll_contents (ss : List Stmt) :
    (Stmt.writeAll ss .unlimited).2.contents = Phrase.lines (ss.map Stmt.phrase) := by
  have hline : ∀ s : Stmt, s.prefixForm ++ [Bytes.lineFeed] = s.phrase.onto [Bytes.lineFeed] := by
    intro s
    rw [Stmt.prefixForm, s.formOnto_eq, ← Phrase.onto_append, List.nil_append]
  rw [Stmt.writeAll, Sink.writeEach_contents _ rfl]
  simp only [hline, Phrase.lines, List.flatMap_map]
  rfl

theorem scan_spelled (source : Bytes) : ∀ t ∈ (scan source).tokens, t.Spelled := by
  obtain ⟨ts, line, hsource, hts⟩ := scan_lexemes source
  rw [hsource]
  intro t ht hne
  rcases List.mem_append.mp ht with ht | ht
  · exact hts t ht
  · rw [List.mem_singleton.mp ht] at hne
    exact absurd rfl hne

theorem parse_spelled (source : Bytes) (limit : Nat) :
    ∀ s ∈ (parse (scan source).tokens limit).stmts, s.MadeOf Token.Spelled := by
  apply parse_made limit (scan_spelled source)
  unfold Parse.endMark
  cases hfound : (scan source).tokens.find? Token.isEnd with
  | none => exact fun hne => absurd rfl hne
  | some t => exact scan_spelled source t (List.mem_of_find?_eq_some hfound)

/-- Texts whose statements are written alike have the same statements, apart from lines. -/
theorem prefixForm_faithful {source source' : Bytes} {limit limit' : Nat}
    (hfinite : ∀ s ∈ (parse (scan source).tokens limit).stmts,
      ∀ v ∈ s.constants, v.isFinite = true)
    (hfinite' : ∀ s ∈ (parse (scan source').tokens limit').stmts,
      ∀ v ∈ s.constants, v.isFinite = true)
    (h : (Stmt.writeAll (parse (scan source).tokens limit).stmts .unlimited).2.contents =
      (Stmt.writeAll (parse (scan source').tokens limit').stmts .unlimited).2.contents) :
    (parse (scan source).tokens limit).stmts.map Stmt.unlined =
      (parse (scan source').tokens limit').stmts.map Stmt.unlined := by
  have hmade := parse_spelled source limit
  have hmade' := parse_spelled source' limit'
  generalize (parse (scan source).tokens limit).stmts = ss at *
  generalize (parse (scan source').tokens limit').stmts = ss' at *
  rw [Stmt.writeAll_contents, Stmt.writeAll_contents] at h
  have hphrases := Phrase.lines_injective
    (List.forall_mem_map.mpr fun s hs => (hmade s hs).readable (hfinite s hs))
    (List.forall_mem_map.mpr fun s hs => (hmade' s hs).readable (hfinite' s hs)) h
  have hread : ∀ {ts : List Stmt}, (∀ s ∈ ts, s.MadeOf Token.Spelled) →
      (∀ s ∈ ts, ∀ v ∈ s.constants, v.isFinite = true) →
      (ts.map Stmt.phrase).map Phrase.stmt = ts.map Stmt.unlined := by
    intro ts hts hfin
    rw [List.map_map]
    exact List.map_congr_left fun s hs => (hts s hs).stmt_phrase (hfin s hs)
  rw [← hread hmade hfinite, hphrases, hread hmade' hfinite']

/-- An array with a name that is also the first word of its form, written in two ways. -/
theorem arrays_alike :
    let source := utf8 "print [array, 1.50];"
    let source' := utf8 "// one\nprint ([array, (1.5)]);"
    (∀ s ∈ (parse (scan source).tokens 9).stmts, ∀ v ∈ s.constants, v.isFinite = true) ∧
      (∀ s ∈ (parse (scan source').tokens 7).stmts, ∀ v ∈ s.constants, v.isFinite = true) ∧
      (Stmt.writeAll (parse (scan source).tokens 9).stmts .unlimited).2.contents =
        (Stmt.writeAll (parse (scan source').tokens 7).stmts .unlimited).2.contents ∧
      (parse (scan source).tokens 9).stmts.map Stmt.unlined =
        (parse (scan source').tokens 7).stmts.map Stmt.unlined := by
  intro source source'
  let mark (kind : TokenKind) (text : String) (line : Int) : Token := ⟨kind, utf8 text, .null, line⟩
  let tree (digits : String) (line : Int) : Stmt :=
    .print (mark .kwPrint "print" line) (.array (mark .leftBracket "[" line)
      [.reference (mark .identifier "array" line),
        .literal (.number (Decimal.readPlain (utf8 digits))) line])
  have htokens : (scan source).tokens = [mark .kwPrint "print" 1, mark .leftBracket "[" 1,
      mark .identifier "array" 1, mark .comma "," 1,
      ⟨.number, utf8 "1.50", .number (Decimal.readPlain (utf8 "1.50")), 1⟩,
      mark .rightBracket "]" 1, mark .semicolon ";" 1, .endOfText 1] := by with_unfolding_all rfl
  have htokens' : (scan source').tokens = [mark .kwPrint "print" 2, mark .leftParen "(" 2,
      mark .leftBracket "[" 2, mark .identifier "array" 2, mark .comma "," 2,
      mark .leftParen "(" 2, ⟨.number, utf8 "1.5", .number (Decimal.readPlain (utf8 "1.5")), 2⟩,
      mark .rightParen ")" 2, mark .rightBracket "]" 2, mark .rightParen ")" 2,
      mark .semicolon ";" 2, .endOfText 2] := by with_unfolding_all rfl
  -- The numbers stay as they are: parsing does not look at them.
  have hstmts : (parse (scan source).tokens 9).stmts = [tree "1.50" 1] := by
    rw [htokens]
    simp only [tree]
    generalize Decimal.readPlain (utf8 "1.50") = f
    cbv
  have hstmts' : (parse (scan source').tokens 7).stmts = [tree "1.5" 2] := by
    rw [htokens']
    simp only [tree]
    generalize Decimal.readPlain (utf8 "1.5") = f
    cbv
  have hfinite : ∀ s ∈ (parse (scan source).tokens 9).stmts,
      ∀ v ∈ s.constants, v.isFinite = true := by
    rw [hstmts]
    decide +kernel
  have hfinite' : ∀ s ∈ (parse (scan source').tokens 7).stmts,
      ∀ v ∈ s.constants, v.isFinite = true := by
    rw [hstmts']
    decide +kernel
  have hwritten : (Stmt.writeAll (parse (scan source).tokens 9).stmts .unlimited).2.contents =
      (Stmt.writeAll (parse (scan source').tokens 7).stmts .unlimited).2.contents := by
    rw [hstmts, hstmts']
    decide +kernel
  exact ⟨hfinite, hfinite', hwritten, prefixForm_faithful hfinite hfinite' hwritten⟩

end Scribe
