import Scribe.Document.Write
import Scribe.Proofs.Decimal.RoundTrip
import Scribe.Proofs.Parse.Shape
import Scribe.Proofs.Token.Rescan
import Scribe.Proofs.Tree.Phrase

/-!
# Trees read from their prefix form

The prefix form of a tree is a phrase, and a tree that was parsed from the tokens of a scan can be
read from the phrase: the text of a token says what token it is, and the first word of a list says
what its other parts are. Only lines are lost.
-/

namespace Scribe

/-- The token has the form of its category. -/
def Token.Spelled (t : Token) : Prop := t.kind ≠ .eof → Lexeme t.kind t.lexeme t.literal

def Value.isFinite : Value → Bool
  | .number f => !(f.isNaN || f.isInf)
  | _ => true

namespace Expr

mutual

def constants : Expr → List Value
  | .absent => []
  | .literal value _ => [value]
  | .reference _ => []
  | .assign _ value => constants value
  | .unary _ operand => constants operand
  | .binary left _ right => constants left ++ constants right
  | .array _ elems => constantsOf elems

def constantsOf : List Expr → List Value
  | [] => []
  | e :: es => constants e ++ constantsOf es

end

mutual

def unlined : Expr → Expr
  | .absent => .absent
  | .literal value _ => .literal value 0
  | .reference name => .reference name.unlined
  | .assign name value => .assign name.unlined (unlined value)
  | .unary op operand => .unary op.unlined (unlined operand)
  | .binary left op right => .binary (unlined left) op.unlined (unlined right)
  | .array bracket elems => .array bracket.unlined (unlinedAll elems)

def unlinedAll : List Expr → List Expr
  | [] => []
  | e :: es => unlined e :: unlinedAll es

end

mutual

def phrase : Expr → Phrase
  | .absent => .word []
  | .literal (.string text) _ => .quoted text
  | .literal value _ => .word value.display
  | .reference name => .word name.lexeme
  | .assign name value => .list (utf8 "=") [.word name.lexeme, phrase value]
  | .unary op operand => .list op.lexeme [phrase operand]
  | .binary left op right => .list op.lexeme [phrase left, phrase right]
  | .array _ elems => .list (utf8 "array") (phrases elems)

def phrases : List Expr → List Phrase
  | [] => []
  | e :: es => phrase e :: phrases es

end

def ofWord (text : Bytes) : Expr :=
  let t := Token.ofText text
  match Parse.opening t with
  | .constant v => .literal v 0
  | _ => .reference t

/-- The expression of a list with a given first word. -/
def ofParts (head : Bytes) (parts : List Expr) : Expr :=
  let op := Token.ofText head
  match op.kind, parts with
  | .identifier, elems => .array (Token.ofText (utf8 "[")) elems
  | .equal, [.reference name, value] => .assign name value
  | _, [operand] => .unary op operand
  | _, [left, right] => .binary left op right
  | _, _ => .absent

end Expr

namespace Phrase

mutual

/-- The expression that a phrase renders. -/
def expr : Phrase → Expr
  | .word text => .ofWord text
  | .quoted text => .literal (.string text) 0
  | .list head parts => .ofParts head (exprs parts)

def exprs : List Phrase → List Expr
  | [] => []
  | p :: ps => expr p :: exprs ps

end

end Phrase

open Grammar Parse Phrase

/-! ## Tokens -/

/-- A token is known from its text alone. -/
theorem Token.Spelled.ofText {t : Token} (h : t.Spelled) {kind : TokenKind} (hkind : t.kind = kind)
    (hne : kind ≠ .eof) : Token.ofText t.lexeme = t.unlined :=
  (h (hkind ▸ hne)).ofText

theorem Lexeme.bare {kind : TokenKind} {text : Bytes} {v : Value} (h : Lexeme kind text v)
    (hstring : kind ≠ .string) (hleft : kind ≠ .leftParen) (hright : kind ≠ .rightParen) :
    Bare text := by
  refine ⟨h.ne_nil, ?_⟩
  have hmarks : ∀ entry ∈ TokenKind.marks, entry.1 ≠ .leftParen → entry.1 ≠ .rightParen →
      ∀ b ∈ entry.2, b ∉ Phrase.ends := by decide +kernel
  have hends : ∀ b ∈ Phrase.ends, b < 0x80 ∧ b.toNat < 0x2E ∧
      Scan.continuesWord (Rune.ascii b).char = false := by decide +kernel
  cases h with
  | mark hmark => exact hmarks _ hmark hleft hright
  | number hplain _ =>
      intro b hb hend
      have hrange := (Decimal.isPlain_range (hplain.bytes b hb)).1
      have hsmall := (hends b hend).2.1
      omega
  | string _ => exact absurd rfl hstring
  | word hrunes hstart hmore =>
      intro b hb hend
      obtain ⟨hascii, -, hword⟩ := hends b hend
      have hmem : Rune.ascii b ∈ text.runes := (Bytes.mem_runes_ascii hascii).mpr hb
      rw [hrunes] at hmem
      have hcontinues : Scan.continuesWord (Rune.ascii b).char = true := by
        rcases List.mem_cons.mp hmem with hfirst | hlater
        · rw [hfirst, Scan.continuesWord, hstart, Bool.true_or]
        · exact hmore _ hlater
      rw [hword] at hcontinues
      cases hcontinues

/-- A mark or a reserved word is known from its category alone. -/
theorem Token.Spelled.lexeme_eq {t : Token} (h : t.Spelled) {kind : TokenKind} {text : Bytes}
    (hkind : t.kind = kind) (hfixed : kind ∉ [.identifier, .number, .string, .eof])
    (hmarks : ∀ entry ∈ TokenKind.marks, entry.1 = kind → entry.2 = text)
    (hkeywords : ∀ entry ∈ TokenKind.keywords, entry.2 = kind → entry.1 = text) :
    t.lexeme = text := by
  simp only [List.mem_cons, List.not_mem_nil, or_false, not_or] at hfixed
  obtain ⟨hidentifier, hnumber, hstring, heof⟩ := hfixed
  have hlexeme : Lexeme kind t.lexeme t.literal := hkind ▸ h (hkind ▸ heof)
  rcases (hlexeme.spelling hnumber hstring).2 with hword | hmark | hkeyword
  · exact absurd hword hidentifier
  · exact hmarks _ hmark rfl
  · exact hkeywords _ hkeyword rfl

theorem Token.Spelled.ofText_fixed {t : Token} (h : t.Spelled) {kind : TokenKind} {text : Bytes}
    (hkind : t.kind = kind) (hfixed : kind ∉ [.identifier, .number, .string, .eof])
    (hmarks : ∀ entry ∈ TokenKind.marks, entry.1 = kind → entry.2 = text)
    (hkeywords : ∀ entry ∈ TokenKind.keywords, entry.2 = kind → entry.1 = text) :
    Token.ofText text = t.unlined := by
  rw [← h.lexeme_eq hkind hfixed hmarks hkeywords]
  exact h.ofText hkind fun heof => hfixed (by simp [heof])

theorem operator_kinds {kind : TokenKind}
    (h : (kind = .bang ∨ kind = .minus) ∨ ∃ tier, kind ∈ operatorsOf tier) :
    kind ≠ .identifier ∧ kind ≠ .equal ∧ kind ≠ .string ∧ kind ≠ .leftParen ∧
      kind ≠ .rightParen ∧ kind ≠ .eof := by
  rcases h with (rfl | rfl) | ⟨tier, h⟩
  · simp
  · simp
  · cases tier <;> simp only [operatorsOf, List.mem_cons, List.not_mem_nil, or_false] at h <;>
      rcases h with rfl | rfl | rfl | rfl <;> simp

/-! ## Constants -/

namespace Expr

theorem phrase_word {v : Value} (h : ∀ text, v ≠ .string text) (line : Int) :
    (literal v line).phrase = .word v.display := by
  cases v with
  | string text => exact absurd rfl (h text)
  | _ => rfl

theorem ofWord_constant {t : Token} {text : Bytes} {v : Value}
    (h : Lexeme t.kind text t.literal) (hdenotes : Denotes t v) : ofWord text = .literal v 0 := by
  have hopening : opening ⟨t.kind, text, t.literal, 0⟩ = .constant v := by
    rw [← opening_eq_constant.mpr hdenotes]
    rfl
  simp only [ofWord, h.ofText, hopening]

end Expr

/-- A finite constant that is no string is written as a token that denotes it. -/
theorem Grammar.Denotes.written {t : Token} {v : Value} (h : Denotes t v) (ht : t.Spelled)
    (hfinite : v.isFinite = true) : (∃ text, v = .string text) ∨
      (∀ text, v ≠ .string text) ∧ ∃ u, Denotes u v ∧ u.kind ≠ .string ∧
        Lexeme u.kind v.display u.literal := by
  have hword : ∀ {kind : TokenKind}, t.kind = kind → kind ≠ .eof → kind ≠ .string →
      v.display = t.lexeme → ∃ u, Denotes u v ∧ u.kind ≠ .string ∧
        Lexeme u.kind v.display u.literal :=
    fun hkind hne hstring hdisplay =>
      ⟨t, h, hkind ▸ hstring, hdisplay ▸ ht (hkind ▸ hne)⟩
  cases h with
  | no hkind =>
      right
      refine ⟨nofun, hword hkind (by decide) (by decide) ?_⟩
      exact (ht.lexeme_eq hkind (by decide) (by decide) (by decide)).symm
  | yes hkind =>
      right
      refine ⟨nofun, hword hkind (by decide) (by decide) ?_⟩
      exact (ht.lexeme_eq hkind (by decide) (by decide) (by decide)).symm
  | null hkind =>
      right
      refine ⟨nofun, hword hkind (by decide) (by decide) ?_⟩
      exact (ht.lexeme_eq hkind (by decide) (by decide) (by decide)).symm
  | number hkind =>
      right
      obtain ⟨f, hvalue, hplain, hread⟩ := (ht (by simp [hkind])).of_number hkind
      rw [hvalue] at hfinite ⊢
      simp only [Value.isFinite, Bool.not_eq_true', Bool.or_eq_false_iff] at hfinite
      obtain ⟨hdigits, hback⟩ := Decimal.number_of_readPlain hplain hread hfinite.1 hfinite.2
      have hdisplay : (Value.number f).display = Layout.plain.number f := List.append_nil _
      rw [hdisplay]
      exact ⟨nofun, ⟨.number, Layout.plain.number f, .number f, 0⟩, .number rfl, nofun,
        .number hdigits hback⟩
  | string hkind => exact .inl ((ht (by simp [hkind])).of_string hkind)

theorem Grammar.Denotes.not_paren {t : Token} {v : Value} (h : Denotes t v) :
    t.kind ≠ .leftParen ∧ t.kind ≠ .rightParen := by
  rcases h with hkind | hkind | hkind | hkind | hkind <;> simp [hkind]

/-! ## Lists in trees -/

section Lists

variable {α β : Type} {f : α → β} {g : α → List β} {every : List α → List β}

/-- What goes through a list one by one, as functions on trees do. -/
theorem eq_map (hnil : every [] = []) (hcons : ∀ a as, every (a :: as) = f a :: every as)
    (as : List α) : every as = as.map f := by
  induction as with
  | nil => exact hnil
  | cons a as ih => rw [hcons, ih, List.map_cons]

theorem eq_flatMap (hnil : every [] = []) (hcons : ∀ a as, every (a :: as) = g a ++ every as)
    (as : List α) : every as = as.flatMap g := by
  induction as with
  | nil => exact hnil
  | cons a as ih => rw [hcons, ih, List.flatMap_cons]

end Lists

/-! ## Expressions -/

namespace Expr

theorem constantsOf_eq (es : List Expr) : constantsOf es = es.flatMap constants :=
  eq_flatMap rfl (fun _ _ => rfl) es

theorem unlinedAll_eq (es : List Expr) : unlinedAll es = es.map unlined :=
  eq_map rfl (fun _ _ => rfl) es

theorem phrases_eq (es : List Expr) : phrases es = es.map phrase :=
  eq_map rfl (fun _ _ => rfl) es

theorem exprs_eq (ps : List Phrase) : Phrase.exprs ps = ps.map Phrase.expr :=
  eq_map rfl (fun _ _ => rfl) ps

mutual

theorem formOnto_eq : (e : Expr) → (tail : Bytes) → e.formOnto tail = e.phrase.onto tail
  | .absent, _ => rfl
  | .literal v _, _ => by cases v <;> rfl
  | .reference _, _ => rfl
  | .assign name value, tail => by
      have hhead : utf8 "(= " = 0x28 :: utf8 "=" ++ [Bytes.space] := rfl
      simp [formOnto, phrase, Phrase.onto, Phrase.partsOnto, formOnto_eq value, hhead]
  | .unary op operand, tail => by
      simp [formOnto, phrase, Phrase.onto, Phrase.partsOnto, formOnto_eq operand]
  | .binary left op right, tail => by
      simp [formOnto, phrase, Phrase.onto, Phrase.partsOnto, formOnto_eq left, formOnto_eq right]
  | .array _ elems, tail => by
      have hhead : utf8 "(array" = 0x28 :: utf8 "array" := rfl
      simp [formOnto, phrase, Phrase.onto, formsOnto_eq elems, hhead]

theorem formsOnto_eq : (es : List Expr) → (tail : Bytes) →
    formsOnto es tail = Phrase.partsOnto (phrases es) tail
  | [], _ => rfl
  | e :: es, tail => by
      simp [formsOnto, phrases, Phrase.partsOnto, formOnto_eq e, formsOnto_eq es]

end

theorem ofWord_name {t : Token} (ht : t.Spelled) (hkind : t.kind = .identifier) :
    ofWord t.lexeme = .reference t.unlined := by
  have hopening : opening t.unlined = .name := opening_eq_name.mpr hkind
  simp only [ofWord, ht.ofText hkind (by decide), hopening]

theorem ofParts_two {head : Bytes} (hidentifier : (Token.ofText head).kind ≠ .identifier)
    (hequal : (Token.ofText head).kind ≠ .equal) (left right : Expr) :
    ofParts head [left, right] = .binary left (Token.ofText head) right := by
  simp only [ofParts]
  split <;> simp_all

theorem bare_name {t : Token} (ht : t.Spelled) (hkind : t.kind = .identifier) :
    Bare t.lexeme :=
  (ht (by simp [hkind])).bare (by simp [hkind]) (by simp [hkind]) (by simp [hkind])

theorem bare_operator {t : Token} (ht : t.Spelled)
    (h : (t.kind = .bang ∨ t.kind = .minus) ∨ ∃ tier, t.kind ∈ operatorsOf tier) :
    Bare t.lexeme := by
  obtain ⟨-, -, hstring, hleft, hright, heof⟩ := operator_kinds h
  exact (ht heof).bare hstring hleft hright

theorem MadeOf.readable {e : Expr} (h : e.MadeOf Token.Spelled)
    (hfinite : ∀ v ∈ e.constants, v.isFinite = true) : e.phrase.Readable := by
  induction h with
  | @constant t v ht hdenotes =>
      rcases hdenotes.written ht (hfinite v List.mem_cons_self) with ⟨text, rfl⟩ | ⟨hword, u, hu⟩
      · exact .quoted text
      · rw [phrase_word hword]
        obtain ⟨hdenotes, hstring, hlexeme⟩ := hu
        obtain ⟨hleft, hright⟩ := hdenotes.not_paren
        exact .word (hlexeme.bare hstring hleft hright)
  | name ht hkind => exact .word (bare_name ht hkind)
  | assign ht hkind _ ih =>
      refine .list ⟨by decide, by decide +kernel⟩ ?_
      simp only [List.forall_mem_cons, List.not_mem_nil, IsEmpty.forall_iff, implies_true, and_true]
      exact ⟨.word (bare_name ht hkind), ih hfinite⟩
  | unary ht hop _ ih =>
      refine .list (bare_operator ht (.inl hop)) ?_
      simpa using ih hfinite
  | binary _ ht hop _ ihleft ihright =>
      obtain ⟨hleft, hright⟩ := List.forall_mem_append.mp hfinite
      refine .list (bare_operator ht (.inr ⟨_, hop⟩)) ?_
      simpa using ⟨ihleft hleft, ihright hright⟩
  | array _ _ _ ih =>
      rw [constants, constantsOf_eq] at hfinite
      refine .list ⟨by decide, by decide +kernel⟩ ?_
      rw [phrases_eq, List.forall_mem_map]
      intro e he
      exact ih e he fun v hv => hfinite v (List.mem_flatMap.mpr ⟨e, he, hv⟩)

/-- An expression is read from its phrase. -/
theorem MadeOf.expr_phrase {e : Expr} (h : e.MadeOf Token.Spelled)
    (hfinite : ∀ v ∈ e.constants, v.isFinite = true) : e.phrase.expr = e.unlined := by
  induction h with
  | @constant t v ht hdenotes =>
      rcases hdenotes.written ht (hfinite v List.mem_cons_self) with
        ⟨text, rfl⟩ | ⟨hword, u, hu, -, hlexeme⟩
      · rfl
      · rw [phrase_word hword]
        exact ofWord_constant hlexeme hu
  | name ht hkind => exact ofWord_name ht hkind
  | @assign name value ht hkind _ ih =>
      have hequal : (Token.ofText (utf8 "=")).kind = .equal := by decide +kernel
      simp only [phrase, Phrase.expr, Phrase.exprs, ofWord_name ht hkind, ih hfinite, unlined,
        ofParts, hequal]
  | @unary op operand ht hop _ ih =>
      have htoken : Token.ofText op.lexeme = op.unlined :=
        ht.ofText rfl (operator_kinds (.inl hop)).2.2.2.2.2
      have hkind : op.unlined.kind = .bang ∨ op.unlined.kind = .minus := hop
      simp only [phrase, Phrase.expr, Phrase.exprs, ih hfinite, unlined, ofParts, htoken]
      rcases hkind with hkind | hkind <;> rw [hkind]
  | @binary tier left right op _ ht hop _ ihleft ihright =>
      obtain ⟨hleft, hright⟩ := List.forall_mem_append.mp hfinite
      obtain ⟨hidentifier, hequal, -, -, -, heof⟩ := operator_kinds (.inr ⟨tier, hop⟩)
      have htoken : Token.ofText op.lexeme = op.unlined := ht.ofText rfl heof
      have htwo : ∀ l r, ofParts op.lexeme [l, r] = .binary l (Token.ofText op.lexeme) r :=
        ofParts_two (htoken ▸ hidentifier) (htoken ▸ hequal)
      simp only [phrase, Phrase.expr, Phrase.exprs, ihleft hleft, ihright hright, unlined, htwo,
        htoken]
  | @array bracket elems ht hkind _ ih =>
      have hhead : (Token.ofText (utf8 "array")).kind = .identifier := by decide +kernel
      have hbracket : Token.ofText (utf8 "[") = bracket.unlined := ht.ofText_fixed hkind
        (by decide) (by decide) (by decide)
      rw [constants, constantsOf_eq] at hfinite
      simp only [phrase, Phrase.expr, unlined, ofParts, hhead, hbracket, phrases_eq, exprs_eq,
        unlinedAll_eq, List.map_map]
      congr 1
      apply List.map_congr_left
      intro e he
      exact ih e he fun v hv => hfinite v (List.mem_flatMap.mpr ⟨e, he, hv⟩)

end Expr

end Scribe
