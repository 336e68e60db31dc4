import Scribe.Proofs.Parse.Unwind

/-!
# Every part comes to an end

A part of the parser may begin at any walker in the list: at any depth, and also while blocks are
abandoned, where it mirrors no production. It ends all the same, ahead in the list and as deep as it
began. The loops end since a round that goes on has taken a token: what succeeds has, and so has
what was skipped, and what was neither ends the loop.
-/

namespace Scribe

namespace Walk

open Parse (Cursor Run Production Tier Advances)

variable {way : Way} {stop : Nat} {w w' : Walker} {c c' : Cursor}

/-! ## Where parts come to an end -/

/-- A walk from `w` may come to `w'`: ahead, in front of the same end mark, and as deep. -/
structure Reaches (way : Way) (stop : Nat) (w w' : Walker) : Prop where
  stands : ∃ c', Stands way stop w' c'
  depth : w'.depth = w.depth
  place : w.place ≤ w'.place

/-- A walk from `w` ends, and if it succeeds at `least` or further. -/
inductive Ends (way : Way) (stop : Nat) (w : Walker) (least : Nat) :
    Option (Except Trouble α × Walker) → Prop
  | ok {a : α} {w' : Walker} (h : Reaches way stop w w') (hleast : least ≤ w'.place) :
      Ends way stop w least (some (.ok a, w'))
  | error {e : Trouble} {w' : Walker} (h : Reaches way stop w w') :
      Ends way stop w least (some (.error e, w'))

namespace Reaches

theorem refl (h : Stands way stop w c) : Reaches way stop w w := ⟨⟨c, h⟩, rfl, le_rfl⟩

theorem trans {w'' : Walker} (h : Reaches way stop w w') (h' : Reaches way stop w' w'') :
    Reaches way stop w w'' :=
  ⟨h'.stands, h'.depth.trans h.depth, h.place.trans h'.place⟩

theorem room (h : Reaches way stop w w') : w'.room way = w.room way := by
  rw [Walker.room, h.depth, Walker.room]

theorem of_stands (h : Stands way stop w c) (h' : Stands way stop w' c')
    (hdepth : w'.depth = w.depth) (hlen : c'.rest.length ≤ c.rest.length) :
    Reaches way stop w w' := by
  have hplace := h.place
  have hplace' := h'.place
  exact ⟨⟨c', h'⟩, hdepth, by omega⟩

theorem next (h : Stands way stop w c) {t : Token} {rest : List Token}
    (hrest : c.rest = t :: rest) : Reaches way stop w w.next :=
  of_stands h (h.next hrest) rfl (by simp [hrest])

end Reaches

namespace Ends

variable {least : Nat} {r : Option (Except Trouble α × Walker)}

theorem pure (h : ∃ c, Stands way stop w c) (hleast : least ≤ w.place) (a : α) :
    Ends way stop w least ((pure a : Walk α) w) :=
  .ok ⟨h, rfl, le_rfl⟩ hleast

theorem of_reaches (hreach : Reaches way stop w w') (h : Ends way stop w' least r) :
    Ends way stop w least r := by
  cases h with
  | ok h hleast => exact .ok (hreach.trans h) hleast
  | error h => exact .error (hreach.trans h)

theorem mono {less : Nat} (h : Ends way stop w least r) (hless : less ≤ least) :
    Ends way stop w less r := by
  cases h with
  | ok h hleast => exact .ok h (hless.trans hleast)
  | error h => exact .error h

theorem bind {p : Walk α} {f : α → Walk β} {further : Nat} (hp : Ends way stop w least (p w))
    (hf : ∀ a w', Reaches way stop w w' → least ≤ w'.place →
      Ends way stop w' further (f a w')) : Ends way stop w further ((p >>= f) w) := by
  generalize hr : p w = r at hp
  cases hp with
  | ok h hleast =>
      rw [then_of_ok hr]
      exact (hf _ _ h hleast).of_reaches h
  | error h =>
      rw [then_of_error hr]
      exact .error h

theorem unnested {p : Walk α} (h : Ends way stop w.deeper least (p w.deeper)) :
    Ends way stop w least (Walk.unnested p w.deeper) := by
  have hback : ∀ {w'}, Reaches way stop w.deeper w' →
      Reaches way stop w { w' with depth := w'.depth - 1 } := by
    intro w' h
    obtain ⟨c', hstands⟩ := h.stands
    exact ⟨⟨c', hstands.withDepth _⟩, by rw [h.depth]; exact Int.add_sub_cancel _ _, h.place⟩
  generalize hr : p w.deeper = r at h
  cases h with
  | ok h hleast =>
      rw [unnested_of_some hr]
      exact .ok (hback h) hleast
  | error h =>
      rw [unnested_of_some hr]
      exact .error (hback h)

end Ends

/-- What mirrors a production goes as far ahead as the production. -/
theorem Mirrors.ends {p : Walk α} {q : Production α} {taken : TokenKind → Prop} (k : Nat)
    (hmirrors : Mirrors way stop w (p w) (q c)) (h : Stands way stop w c)
    (hadv : Advances taken q c)
    (hless : ∀ a c', q c = .ok a c' → c'.rest.length + k ≤ c.rest.length) :
    Ends way stop w (w.place + k) (p w) := by
  generalize p w = r at hmirrors
  generalize hs : q c = s at hmirrors
  cases hmirrors with
  | ok hk =>
      have hplace := h.place
      have hplace' := hk.stands.place
      have hfewer := hless _ _ hs
      exact .ok (.of_stands h hk.stands hk.depth (hadv.ahead_of_ok hs).rest_length) (by omega)
  | failed hk =>
      exact .error (.of_stands h hk.stands hk.depth (hadv.ahead_of_error hs).rest_length)
  | tooDeep hstands hdepth =>
      exact .error (.of_stands h hstands hdepth (hadv.ahead_of_error hs).rest_length)
  | unwinding hstands hdepth =>
      exact .error (.of_stands h hstands hdepth (hadv.ahead_of_error hs).rest_length)

theorem Stands.accept_ends {yes no : Walk α} {least : Nat} (h : Stands way stop w c)
    (kinds : List TokenKind)
    (hyes : ∀ t rest, c.rest = t :: rest → Ends way stop w.next least (yes w.next))
    (hno : Ends way stop w least (no w)) :
    Ends way stop w least
      ((way.accept kinds >>= fun found => if found = true then yes else no) w) := by
  cases hrest : c.rest with
  | nil =>
      rw [if_of_false (h.accept_of_nil hrest kinds)]
      exact hno
  | cons t rest =>
      by_cases hkind : t.kind ∈ kinds
      · rw [if_of_true (h.accept_of_mem hrest hkind)]
        exact (hyes t rest hrest).of_reaches (.next h hrest)
      · rw [if_of_false (h.accept_of_not_mem hrest hkind)]
        exact hno

/-! ## Parts without statements in them -/

namespace Stands

variable (h : Stands way stop w c)
include h

theorem consume_ends (kind : TokenKind) {cause : SyntaxCause} (hcause : cause ≠ .statementTooDeep) :
    Ends way stop w w.place (way.consume kind cause w) :=
  have hadv : Advances Parse.anything (Parse.expect kind cause) c := .expect trivial cause c
  (h.consume kind hcause).ends 0 h hadv fun _ _ hrun => (hadv.ahead_of_ok hrun).rest_length

theorem expression_ends :
    Ends way stop w w.place (way.expression w) :=
  have hadv := Parse.expression_advances (w.room way) c h.finish
  h.expression.ends 0 h hadv fun _ _ hrun => (hadv.ahead_of_ok hrun).rest_length

theorem variableDeclaration_ends :
    Ends way stop w w.place (way.variableDeclaration w) :=
  have hadv := Parse.advances_stableThroughout.declared (w.room way) c h.finish
  (h.variableDeclaration).ends 0 h hadv fun _ _ hrun => (hadv.ahead_of_ok hrun).rest_length

theorem printStatement_ends :
    Ends way stop w w.place (way.printStatement w) := by
  obtain ⟨keyword, hkeyword⟩ := h.previous
  have hadv := Parse.advances_stableThroughout.printed (w.room way) keyword c h.finish
  exact (h.printStatement hkeyword).ends 0 h hadv fun _ _ hrun =>
    (hadv.ahead_of_ok hrun).rest_length

theorem expressionStatement_ends :
    Ends way stop w (w.place + 1) (way.expressionStatement w) :=
  (h.expressionStatement).ends 1 h
    (Parse.advances_stableThroughout.evaluated (w.room way) c h.finish)
    fun e c' => Parse.evaluated_consumes (w.room way) c e c' h.finish

end Stands

/-! ## Declarations and statements -/

theorem tell_reaches (e : Trouble) (h : Reaches way stop w w') :
    ∃ w'', tell e w' = some (.ok (), w'') ∧ Reaches way stop w w'' := by
  obtain ⟨c', hstands⟩ := h.stands
  cases e with
  | found d => exact ⟨_, tell_found d w', ⟨c'.report d, hstands.reported d⟩, h.depth, h.place⟩
  | unwound => exact ⟨w', tell_unwound w', h⟩

/-- A declaration succeeds always. It takes a token if there is one, or else the blocks around it
are being abandoned. -/
theorem declaration_reaches (h : Stands way stop w c)
    (hattempt : Ends way stop w (w.place + 1) (attempt way w)) :
    ∃ found w', way.declaration w = some (.ok found, w') ∧ Reaches way stop w w' ∧
      (w'.unwinding = false → c.rest ≠ [] → w.place < w'.place) := by
  generalize hr : attempt way w = r at hattempt
  cases hattempt with
  | @ok s w' hreach hleast =>
      exact ⟨some s, w', declaration_of_some hr, hreach, fun _ _ => hleast⟩
  | @error e w' hreach =>
      obtain ⟨w'', htell, hreach''⟩ := tell_reaches e hreach
      by_cases habandoned : w''.unwinding = true ∧ 0 < w''.depth
      · obtain ⟨hflag, hdepth⟩ := habandoned
        refine ⟨none, w'', (declaration_of_some hr).trans (settle_abandoned htell hflag hdepth),
          hreach'', fun hlowered => ?_⟩
        rw [hflag] at hlowered
        cases hlowered
      · have hskip : w''.unwinding = false ∨ w''.depth ≤ 0 := by
          rw [not_and_or, Bool.not_eq_true, Int.not_lt] at habandoned
          exact habandoned
        obtain ⟨c'', hstands⟩ := hreach''.stands
        obtain ⟨v, hsettle, hk⟩ := settle_skipped htell hskip hstands
        have hplace := h.place
        have hplace'' := hstands.place
        have hplacev := hk.stands.place
        have hahead := hreach''.place
        have hless : (Parse.synchronize c'').rest.length ≤ c''.rest.length :=
          (Parse.synchronize_ahead c'').rest_length
        refine ⟨none, v, (declaration_of_some hr).trans hsettle,
          .of_stands h hk.stands (hk.depth.trans hreach''.depth) (by omega), fun _ hne => ?_⟩
        have hshrink := Parse.synchronize_behind (c := c) (d := c'') (by omega) hne
        omega

/-- Statements that have `n` levels left end, wherever they begin. -/
def StatementsEnd (way : Way) (stop n : Nat) : Prop :=
  ∀ w c, Stands way stop w c → w.room way = n →
    Ends way stop w (w.place + 1) (way.statement w)

section Statements

variable {n : Nat} (ih : StatementsEnd way stop n)
include ih

theorem attempt_ends (h : Stands way stop w c) (hroom : w.room way = n) :
    Ends way stop w (w.place + 1) (attempt way w) :=
  h.accept_ends _ (fun _ _ hrest => (h.next hrest).variableDeclaration_ends)
    (ih w c h hroom)

theorem items_ends (h : Stands way stop w c) (hroom : w.room way = n) :
    Ends way stop w w.place (way.items w) := by
  induction hlen : c.rest.length using Nat.strongRecOn generalizing w c with
  | ind len ihlen =>
      cases hcloses : Parse.closes c.peek with
      | true =>
          rw [items_of_closes h hcloses]
          exact .pure ⟨c, h⟩ le_rfl []
      | false =>
          have hne := Parse.rest_ne_nil_of_not_closes h.finish hcloses
          obtain ⟨found, w', hdecl, hreach, hfurther⟩ :=
            declaration_reaches h (attempt_ends ih h hroom)
          obtain ⟨c', hstands⟩ := hreach.stands
          rw [items_of_not_closes h hcloses, then_of_ok hdecl]
          refine .of_reaches hreach ?_
          cases hflag : w'.unwinding with
          | true =>
              rw [itemsBehind_of_raised way found hflag]
              exact .error (.refl hstands)
          | false =>
              have hmore := hfurther hflag hne
              have hplace := h.place
              have hplace' := hstands.place
              rw [itemsBehind_of_lowered way found hflag]
              exact (ihlen _ (by omega) hstands (hreach.room.trans hroom) rfl).bind
                fun ss _ hreach' hlater => .pure hreach'.stands (hreach.place.trans hlater) _

theorem block_ends (h : Stands way stop w c) (hroom : w.room way = n) :
    Ends way stop w w.place (way.block w) := by
  obtain ⟨brace, hbrace⟩ := h.previous
  rw [Way.block, then_of_ok hbrace]
  refine (items_ends ih h hroom).bind fun ss w₁ hreach₁ _ => ?_
  obtain ⟨c₁, hstands₁⟩ := hreach₁.stands
  exact (hstands₁.consume_ends .rightBrace (by simp)).bind fun _ _ hreach₂ hleast =>
    .pure hreach₂.stands (hreach₁.place.trans hleast) _

theorem branch_ends (h : Stands way stop w c) (hroom : w.room way = n) :
    Ends way stop w w.place (way.branch w) := by
  have hstatement : ∀ {v}, Reaches way stop w v →
      Ends way stop v w.place (way.statement v) := by
    intro v hreach
    obtain ⟨d, hstands⟩ := hreach.stands
    exact (ih v d hstands (hreach.room.trans hroom)).mono (Nat.le_succ_of_le hreach.place)
  obtain ⟨keyword, hkeyword⟩ := h.previous
  rw [Way.branch, then_of_ok hkeyword]
  refine (h.consume_ends .leftParen (by simp)).bind fun _ w₁ hreach₁ _ => ?_
  obtain ⟨c₁, hstands₁⟩ := hreach₁.stands
  refine (hstands₁.expression_ends).bind fun cond w₂ hreach₂ _ => ?_
  obtain ⟨c₂, hstands₂⟩ := hreach₂.stands
  refine (hstands₂.consume_ends .rightParen (by simp)).bind fun _ w₃ hreach₃ _ => ?_
  have hreach := (hreach₁.trans hreach₂).trans hreach₃
  refine (hstatement hreach).bind fun yes w₄ hreach₄ _ => ?_
  obtain ⟨c₄, hstands₄⟩ := hreach₄.stands
  have hreach := hreach.trans hreach₄
  refine Ends.bind (hstands₄.accept_ends _ (fun _ _ hrest => ?_) ?_)
    fun no _ hreach₅ hleast => .pure hreach₅.stands hleast _
  · exact hstatement (hreach.trans (.next hstands₄ hrest))
  · exact .pure hreach₄.stands hreach.place _

theorem stated_ends (h : Stands way stop w c) (hroom : w.room way = n) :
    Ends way stop w (w.place + 1) (stated way w) := by
  refine h.accept_ends _ (fun _ _ hrest => ?print) (h.accept_ends _ (fun _ _ hrest => ?block)
    (h.accept_ends _ (fun _ _ hrest => ?branch) ?expression))
  case print => exact (h.next hrest).printStatement_ends
  case block => exact block_ends ih (h.next hrest) hroom
  case branch => exact branch_ends ih (h.next hrest) hroom
  case expression => exact h.expressionStatement_ends

end Statements

theorem statementsEnd (way : Way) (stop n : Nat) :
    StatementsEnd way stop n := by
  induction n with
  | zero =>
      intro w c h hroom
      rw [statement_eq, then_of_error (nestStatement_of_full h hroom)]
      exact .error ⟨⟨c, h.place, h.ahead, h.rest, h.finish, h.reports⟩, rfl, le_rfl⟩
  | succ n ih =>
      intro w c h hroom
      rw [statement_eq, then_of_ok (nestStatement_of_room way hroom)]
      exact (stated_ends ih (h.withDepth _) (Walker.room_deeper hroom)).unnested

/-! ## All parts -/

/-- The part comes to an end in the list, and gives back its depth, whether it succeeds or not. -/
def Returns (part : Walk α) (w : Walker) : Prop :=
  ∃ r w', part w = some (r, w') ∧ w'.depth = w.depth

theorem Ends.returns {part : Walk α} {least : Nat} (h : Ends way stop w least (part w)) :
    Returns part w := by
  unfold Returns
  generalize part w = r at h
  cases h with
  | ok h => exact ⟨_, _, rfl, h.depth⟩
  | error h => exact ⟨_, _, rfl, h.depth⟩

theorem Mirrors.returns {part : Walk α} {s : Run α} (h : Mirrors way stop w (part w) s) :
    Returns part w := by
  unfold Returns
  generalize part w = r at h
  cases h with
  | ok h => exact ⟨_, _, rfl, h.depth⟩
  | failed h => exact ⟨_, _, rfl, h.depth⟩
  | tooDeep _ hdepth => exact ⟨_, _, rfl, hdepth⟩
  | unwinding _ hdepth => exact ⟨_, _, rfl, hdepth⟩

/-- Behind a prefix operator that is not taken, no primary expression begins. -/
theorem primary_returns (h : Stands way stop w c) : Returns way.primary w := by
  have hbelow := fun m (_ : m < w.room way) => onLevel way stop m
  cases hrest : c.rest with
  | nil => exact (mirrors_primary hbelow h rfl (by simp [hrest])).returns
  | cons t rest =>
      by_cases hsign : t.kind ∈ [TokenKind.bang, .minus]
      · have hnone : ∀ kinds : List TokenKind, .bang ∉ kinds → .minus ∉ kinds →
            way.accept kinds w = some (.ok false, w) := by
          intro kinds hbang hminus
          refine h.accept_of_not_mem hrest ?_
          rcases List.mem_pair.mp hsign with hk | hk
          · rwa [hk]
          · rwa [hk]
        refine ⟨.error (.found (Diagnostic.syntactic c.peek .expectExpression)), w, ?_, rfl⟩
        rw [Way.primary, then_of_ok h.here]
        repeat rw [if_of_false (hnone _ (by decide) (by decide))]
        rfl
      · exact (mirrors_primary hbelow h rfl (by simpa [hrest] using hsign)).returns

/-- All parts of the parser, begun at one walker. -/
structure AllReturn (way : Way) (w : Walker) : Prop where
  declaration : Returns way.declaration w
  variableDeclaration : Returns way.variableDeclaration w
  statement : Returns way.statement w
  printStatement : Returns way.printStatement w
  block : Returns way.block w
  branch : Returns way.branch w
  expressionStatement : Returns way.expressionStatement w
  expression : Returns way.expression w
  assignment : Returns way.assignment w
  binary : ∀ tier, Returns (way.binary tier) w
  unary : Returns way.unary w
  primary : Returns way.primary w
  array : Returns way.array w
  synchronize : Returns way.synchronize w

theorem allReturn (h : Stands way stop w c) : AllReturn way w := by
  obtain ⟨bracket, hbracket⟩ := h.previous
  have hlevel := onLevel way stop (w.room way)
  have hbelow := fun m (_ : m < w.room way) => onLevel way stop m
  have hstatements := statementsEnd way stop (w.room way)
  obtain ⟨_, w₁, hdeclaration, hreach, -⟩ :=
    declaration_reaches h (attempt_ends hstatements h rfl)
  obtain ⟨w₂, hskip, hk⟩ := synchronize_kept h
  exact
    { declaration := ⟨_, w₁, hdeclaration, hreach.depth⟩
      variableDeclaration := (h.variableDeclaration_ends).returns
      statement := (hstatements w c h rfl).returns
      printStatement := (h.printStatement_ends).returns
      block := (block_ends hstatements h rfl).returns
      branch := (branch_ends hstatements h rfl).returns
      expressionStatement := (h.expressionStatement_ends).returns
      expression := (h.expression_ends).returns
      assignment := (hlevel.assignment h rfl).returns
      binary := fun tier => (mirrors_binary hbelow tier (hlevel.below tier) h rfl).returns
      unary := (hlevel.unary h rfl).returns
      primary := primary_returns h
      array := (mirrors_array hbelow bracket h rfl hbracket).returns
      synchronize := ⟨_, w₂, hskip, hk.depth⟩ }

end Walk

end Scribe
