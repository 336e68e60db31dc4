import Scribe.Proofs.Parse.Mirror

/-!
# Walks over statements

Statements and declarations walk as their productions read. A declaration of a block that is
abandoned is left to the declarations around it, and the outermost one lowers the flag.
-/

namespace Scribe

theorem Walker.lowered_eq {w : Walker} (h : w.unwinding = false) :
    { w with unwinding := false } = w := by
  rw [← h]

namespace Walk

open Parse (Cursor Run Production Tier boundaryAfter)

variable {way : Way} {stop : Nat} {w w' : Walker} {c c' : Cursor}

theorem then_congr {p q : Walk α} {f : α → Walk β} (h : p w = q w') :
    (p >>= f) w = (q >>= f) w' := by
  simp only [bind, ExceptT.bind, ExceptT.mk, StateT.bind, h]

/-! ## Statements without statements in them -/

namespace Stands

theorem expression (h : Stands way stop w c) :
    Mirrors way stop w (way.expression w) (Parse.expression (w.room way) c) :=
  mirrors_expression (fun m _ => onLevel way stop m) h rfl

theorem variableDeclaration (h : Stands way stop w c) :
    Mirrors way stop w (way.variableDeclaration w)
      (Parse.declared (w.room way) c) := by
  rw [Way.variableDeclaration, Parse.declared_eq]
  refine (h.consume .identifier (by simp)).bind fun name w₁ c₁ _ hk => ?_
  rw [Parse.initialized]
  rcases hk.stands.accept_one .equal with ⟨t, rest, hrest, hwalk, hread⟩ | ⟨hwalk, hread⟩
  · have hnext := hk.stands.kept_next hrest
    have hinit := hnext.stands.expression
    rw [(hk.trans hnext).room] at hinit
    rw [then_congr (if_of_true hwalk), Parse.bind_of_ok hread]
    exact Mirrors.of_kept hnext (hinit.bind fun init _ _ _ hk' =>
      mirrors_closing hk'.stands .semicolon (by simp) _)
  · rw [then_congr (if_of_false hwalk), Parse.bind_of_ok hread]
    exact mirrors_closing hk.stands .semicolon (by simp) _

theorem printStatement (h : Stands way stop w c) {keyword : Token}
    (hkeyword : way.previous w = some (.ok keyword, w)) :
    Mirrors way stop w (way.printStatement w)
      (Parse.printed (w.room way) keyword c) := by
  rw [Way.printStatement, then_of_ok hkeyword]
  exact h.expression.bind fun e _ _ _ hk => mirrors_closing hk.stands .semicolon (by simp) _

theorem expressionStatement (h : Stands way stop w c) :
    Mirrors way stop w (way.expressionStatement w)
      (Parse.evaluated (w.room way) c) := by
  rw [Way.expressionStatement]
  exact h.expression.bind fun e _ _ _ hk => mirrors_closing hk.stands .semicolon (by simp) _

end Stands

/-! ## Recovery -/

theorem skip_kept {last : Token} (h : Stands way stop w c)
    (hlast : way.previous w = some (.ok last, w)) :
    ∃ w', way.skip w = some (.ok (), w') ∧
      Kept way stop w w' { c with rest := boundaryAfter last c.rest } := by
  induction hrest : c.rest generalizing w c last with
  | nil =>
      have hend := h.atEnd
      rw [hrest] at hend
      have hsame : ({ c with rest := [] } : Cursor) = c := by rw [← hrest]
      refine ⟨w, ?_, ?_⟩
      · rw [Way.skip, if_of_true hend]
        rfl
      · rw [boundaryAfter, hsame]
        exact .refl h
  | cons t rest ih =>
      have hend := h.atEnd
      have hhere := h.here
      rw [hrest] at hend
      rw [Cursor.peek_of_cons hrest] at hhere
      have hsame : ({ c with rest := t :: rest } : Cursor) = c := by rw [← hrest]
      rw [Way.skip, if_of_false hend, then_of_ok hlast, boundaryAfter]
      by_cases hsemi : (last.kind == .semicolon) = true
      · refine ⟨w, ?_, ?_⟩
        · rw [if_pos hsemi]
          rfl
        · rw [if_pos (by simp [hsemi]), hsame]
          exact .refl h
      · rw [if_neg hsemi, then_of_ok hhere]
        by_cases hstart : Parse.startsStatement t.kind = true
        · refine ⟨w, ?_, ?_⟩
          · rw [if_pos hstart]
            rfl
          · rw [if_pos (by simp [hstart]), hsame]
            exact .refl h
        · have hnext := h.kept_next hrest
          rw [if_neg hstart, then_of_ok (h.advance_of_cons hrest), if_neg (by simp [hsemi, hstart])]
          obtain ⟨w', hskip, hk⟩ := ih hnext.stands (h.previous_next hrest) rfl
          exact ⟨w', hskip, hnext.trans hk⟩

theorem synchronize_kept (h : Stands way stop w c) :
    ∃ w', way.synchronize w = some (.ok (), w') ∧ Kept way stop w w' (Parse.synchronize c) := by
  rw [Way.synchronize]
  unfold Parse.synchronize
  split
  · next hrest =>
    obtain ⟨t, hadvance⟩ := h.advance_of_nil hrest
    have hend := h.atEnd
    rw [hrest] at hend
    refine ⟨w, ?_, .refl h⟩
    rw [then_of_ok hadvance, Way.skip, if_of_true hend]
    rfl
  · next t rest hrest =>
    have hnext := h.kept_next hrest
    obtain ⟨w', hskip, hk⟩ := skip_kept hnext.stands (h.previous_next hrest)
    rw [then_of_ok (h.advance_of_cons hrest)]
    exact ⟨w', hskip, hnext.trans hk⟩

theorem tell_found (d : Diagnostic) (w : Walker) :
    tell (.found d) w = some (.ok (), w.report d) := rfl

theorem tell_unwound (w : Walker) : tell .unwound w = some (.ok (), w) := rfl

theorem settle_abandoned {e : Trouble} (htell : tell e w = some (.ok (), w'))
    (hflag : w'.unwinding = true) (hdepth : 0 < w'.depth) :
    way.settle (.error e) w = some (.ok none, w') := by
  rw [Way.settle, then_of_ok htell, then_of_ok (a := w') rfl]
  simp only [hflag, hdepth, decide_true, Bool.and_self, if_true]
  rfl

theorem settle_skipped {e : Trouble} (htell : tell e w = some (.ok (), w'))
    (h : w'.unwinding = false ∨ w'.depth ≤ 0) (hstands : Stands way stop w' c') :
    ∃ w'', way.settle (.error e) w = some (.ok none, w'') ∧
      Kept way stop { w' with unwinding := false } w'' (Parse.synchronize c') := by
  have hlowered : Stands way stop { w' with unwinding := false } c' :=
    ⟨hstands.place, hstands.ahead, hstands.rest, hstands.finish, hstands.reports⟩
  obtain ⟨w'', hskip, hk⟩ := synchronize_kept hlowered
  have hneither : (w'.unwinding && decide (0 < w'.depth)) = false := by
    rcases h with h | h
    · rw [h, Bool.false_and]
    · rw [decide_eq_false (by omega), Bool.and_false]
  refine ⟨w'', ?_, hk⟩
  rw [Way.settle, then_of_ok htell, then_of_ok (a := w') rfl]
  simp only [hneither, Bool.false_eq_true, if_false]
  exact (then_of_ok rfl).trans ((then_of_ok hskip).trans rfl)

/-! ## Declarations -/

/-- A declaration or statement before anything is done about its troubles. -/
def attempt (way : Way) : Walk Stmt :=
  way.accept [.kwLet, .kwVar] >>= fun found =>
    if found = true then way.variableDeclaration else way.statement

theorem declaration_of_some {r : Except Trouble Stmt} (h : attempt way w = some (r, w')) :
    way.declaration w = way.settle r w' := by
  rw [Way.declaration]
  exact step_of_some h

/-- How a declaration of a block ends: kept or skipped, or it is left to those around it. -/
theorem declaration_inner {n : Nat} (hflag : w.unwinding = false) (hdepth : 0 < w.depth)
    (h : Mirrors way stop w (attempt way w) (Parse.declaration n c)) :
    (∃ found w' c', way.declaration w = some (.ok found, w') ∧
      Parse.inner (Parse.declaration n) c = .ok found c' ∧ Kept way stop w w' c') ∨
    (∃ w' c', way.declaration w = some (.ok none, w') ∧
      Parse.inner (Parse.declaration n) c = .error .unwinding c' ∧ Stands way stop w' c' ∧
      w'.depth = w.depth ∧ w'.unwinding = true ∧ w'.excess = w.excess + 1) := by
  generalize hr : attempt way w = r at h
  generalize hs : Parse.declaration n c = s at h
  cases h with
  | ok h => exact .inl ⟨_, _, _, declaration_of_some hr, Parse.inner_of_ok hs, h⟩
  | @failed d w' c' h hcause =>
      have hreported : Kept way stop w (w'.report d) (c'.report d) :=
        h.trans ⟨h.stands.reported d, rfl, rfl, Walker.excess_report_of_ne w' hcause⟩
      have hlowered : (w'.report d).unwinding = false := hreported.unwinding.trans hflag
      obtain ⟨w'', hsettle, hk⟩ := settle_skipped (tell_found d w') (.inl hlowered)
        hreported.stands
      rw [Walker.lowered_eq hlowered] at hk
      exact .inl ⟨none, w'', _, (declaration_of_some hr).trans hsettle, Parse.inner_of_failed hs,
        hreported.trans hk⟩
  | @tooDeep d w' c' hstands hdepth' hflag' hexcess hcause =>
      refine .inr ⟨w'.report d, c'.report d, ?_, Parse.inner_of_tooDeep hs, hstands.reported d,
        hdepth', hflag', ?_⟩
      · rw [declaration_of_some hr]
        exact settle_abandoned (tell_found d w') hflag' (hdepth'.symm ▸ hdepth)
      · rw [Walker.excess_report_of_eq w' hcause, hexcess]
  | @unwinding w' c' hstands hdepth' hflag' hexcess =>
      refine .inr ⟨w', c', ?_, Parse.inner_of_unwinding hs, hstands, hdepth', hflag', hexcess⟩
      rw [declaration_of_some hr]
      exact settle_abandoned (tell_unwound w') hflag' (hdepth'.symm ▸ hdepth)

/-- A declaration of the whole text is kept or skipped. The flag is lowered behind it, and excess
nesting has been reported once at most. -/
theorem declaration_outermost {n : Nat} (hflag : w.unwinding = false) (hdepth : w.depth = 0)
    (h : Mirrors way stop w (attempt way w) (Parse.declaration n c)) :
    ∃ w', way.declaration w = some (.ok (Parse.outermost n c).1, w') ∧
      Stands way stop w' (Parse.outermost n c).2 ∧ w'.depth = 0 ∧ w'.unwinding = false ∧
      w'.excess ≤ w.excess + 1 := by
  generalize hr : attempt way w = r at h
  generalize hs : Parse.declaration n c = s at h
  cases h with
  | @ok s w' c' h =>
      rw [Parse.outermost_of_ok hs]
      exact ⟨w', declaration_of_some hr, h.stands, h.depth.trans hdepth, h.unwinding.trans hflag,
        by rw [h.excess]; omega⟩
  | @failed d w' c' h hcause =>
      obtain ⟨w'', hsettle, hk⟩ := settle_skipped (tell_found d w')
        (.inr (le_of_eq (h.depth.trans hdepth))) (h.stands.reported d)
      rw [Parse.outermost_of_error hs]
      refine ⟨w'', (declaration_of_some hr).trans hsettle, hk.stands,
        hk.depth.trans (h.depth.trans hdepth), hk.unwinding, ?_⟩
      have hexcess : w''.excess = (w'.report d).excess := hk.excess
      rw [hexcess, Walker.excess_report_of_ne w' hcause, h.excess]
      omega
  | @tooDeep d w' c' hstands hdepth' hflag' hexcess hcause =>
      obtain ⟨w'', hsettle, hk⟩ := settle_skipped (tell_found d w')
        (.inr (le_of_eq (hdepth'.trans hdepth))) (hstands.reported d)
      rw [Parse.outermost_of_error hs]
      refine ⟨w'', (declaration_of_some hr).trans hsettle, hk.stands,
        hk.depth.trans (hdepth'.trans hdepth), hk.unwinding, ?_⟩
      have hreported : w''.excess = (w'.report d).excess := hk.excess
      rw [hreported, Walker.excess_report_of_eq w' hcause, hexcess]
  | @unwinding w' c' hstands hdepth' hflag' hexcess =>
      obtain ⟨w'', hsettle, hk⟩ := settle_skipped (tell_unwound w')
        (.inr (le_of_eq (hdepth'.trans hdepth))) hstands
      rw [Parse.outermost_of_error hs]
      refine ⟨w'', (declaration_of_some hr).trans hsettle, hk.stands,
        hk.depth.trans (hdepth'.trans hdepth), hk.unwinding, ?_⟩
      have hsame : w''.excess = w'.excess := hk.excess
      rw [hsame, hexcess]

/-! ## Statements -/

theorem nestStatement_of_full (h : Stands way stop w c) (hroom : w.room way = 0) :
    way.nestStatement w = some (.error (.found (Diagnostic.syntactic c.peek
      .statementTooDeep)), { w with unwinding := true }) := by
  have hnest := nest_of_full h .statementTooDeep hroom
  simp only [Way.nestStatement, tryCatch, tryCatchThe, MonadExceptOf.tryCatch, ExceptT.tryCatch,
    ExceptT.mk, bind, StateT.bind, hnest, Option.bind]
  rfl

theorem nestStatement_of_room (way : Way) {n : Nat} (hroom : w.room way = n + 1) :
    way.nestStatement w = some (.ok (), w.deeper) := by
  have hnest := nest_of_room way .statementTooDeep hroom
  simp only [Way.nestStatement, tryCatch, tryCatchThe, MonadExceptOf.tryCatch, ExceptT.tryCatch,
    ExceptT.mk, bind, StateT.bind, hnest, Option.bind]
  rfl

def stated (way : Way) : Walk Stmt :=
  way.accept [.kwPrint] >>= fun found => if found = true then way.printStatement
    else way.accept [.leftBrace] >>= fun found => if found = true then way.block
      else way.accept [.kwIf] >>= fun found => if found = true then way.branch
        else way.expressionStatement

theorem statement_eq (way : Way) : way.statement =
    way.nestStatement >>= fun _ => unnested (stated way) := by
  rw [Way.statement]
  rfl

def itemsBehind (way : Way) (found : Option Stmt) : Walk (List Stmt) := do
  let w ← get
  if w.unwinding then throw .unwound
  else
    let ss ← way.items
    pure (found.toList ++ ss)

theorem items_of_closes (h : Stands way stop w c)
    (hcloses : Parse.closes c.peek = true) : way.items w = some (.ok [], w) := by
  rw [Way.items]
  cases hrest : c.rest with
  | nil =>
      have hend := h.atEnd
      rw [hrest] at hend
      rw [if_of_false (h.check_of_nil hrest _), if_of_true hend]
      rfl
  | cons t rest =>
      have hmark := h.rest t (hrest ▸ List.mem_cons_self)
      have hbrace : (t.kind == .rightBrace) = true := by
        simpa [Parse.closes, Cursor.peek_of_cons hrest, hmark] using hcloses
      rw [if_of_true (hbrace ▸ h.check_of_cons hrest .rightBrace)]
      rfl

theorem items_of_not_closes (h : Stands way stop w c) (hopen : Parse.closes c.peek = false) :
    way.items w = (way.declaration >>= itemsBehind way) w := by
  cases hrest : c.rest with
  | nil =>
      rw [Parse.closes_of_nil hrest h.finish] at hopen
      cases hopen
  | cons t rest =>
      rw [Parse.closes, Cursor.peek_of_cons hrest, Bool.or_eq_false_iff] at hopen
      obtain ⟨hbrace, -⟩ := hopen
      have hend := h.atEnd
      rw [hrest] at hend
      rw [Way.items, if_of_false (hbrace ▸ h.check_of_cons hrest .rightBrace), if_of_false hend]
      rfl

theorem itemsBehind_of_raised (way : Way) (found : Option Stmt)
    (h : w.unwinding = true) : itemsBehind way found w = some (.error .unwound, w) := by
  rw [itemsBehind, then_of_ok (a := w) rfl, if_pos h]
  rfl

theorem itemsBehind_of_lowered (way : Way) (found : Option Stmt)
    (h : w.unwinding = false) : itemsBehind way found w =
      (way.items >>= fun ss => pure (found.toList ++ ss)) w := by
  rw [itemsBehind, then_of_ok (a := w) rfl, if_neg (by simp [h])]

/-- Statements that have `n` levels left mirror their production, unless blocks are being
abandoned. -/
def OnStatements (way : Way) (stop n : Nat) : Prop :=
  ∀ w c, Stands way stop w c → w.room way = n → w.unwinding = false → 0 ≤ w.depth →
    Mirrors way stop w (way.statement w) (Parse.statement n c)

section Statements

variable {n : Nat} (ih : OnStatements way stop n)
include ih

theorem mirrors_attempt (h : Stands way stop w c) (hroom : w.room way = n)
    (hflag : w.unwinding = false) (hdepth : 0 ≤ w.depth) :
    Mirrors way stop w (attempt way w) (Parse.declaration n c) := by
  have hintroduces : ∀ kind, Parse.introduces kind = true ↔
      kind ∈ [TokenKind.kwLet, .kwVar] := by simp [Parse.introduces_eq_true]
  rw [attempt, Parse.declaration, Parse.declarationBody]
  rcases h.accept_cases hintroduces with ⟨t, rest, hrest, hwalk, hread⟩ | ⟨hwalk, hread⟩
  · have hnext := h.kept_next hrest
    have hdeclared := hnext.stands.variableDeclaration
    rw [hnext.room, hroom] at hdeclared
    rw [if_of_true hwalk]
    exact (Parse.bind_of_ok hread).symm ▸ .of_kept hnext hdeclared
  · rw [if_of_false hwalk]
    exact (Parse.bind_of_ok hread).symm ▸ ih w c h hroom hflag hdepth

theorem mirrors_items (h : Stands way stop w c) (hroom : w.room way = n)
    (hflag : w.unwinding = false) (hdepth : 0 < w.depth) :
    Mirrors way stop w (way.items w) (Parse.items n c) := by
  induction hlen : c.rest.length using Nat.strongRecOn generalizing w c with
  | ind len ihlen =>
      cases hcloses : Parse.closes c.peek with
      | true =>
          rw [items_of_closes h hcloses, Parse.items_of_closes n hcloses]
          exact .pure h []
      | false =>
          have hne := Parse.rest_ne_nil_of_not_closes h.finish hcloses
          rw [items_of_not_closes h hcloses, Parse.items_of_not_closes n h.finish hcloses]
          rcases declaration_inner hflag hdepth (mirrors_attempt ih h hroom hflag hdepth.le) with
            ⟨found, w', c', hdecl, hinner, hk⟩ |
              ⟨w', c', hdecl, hinner, hstands, hback, hraised, hexcess⟩
          · have hless := Parse.inner_consumes n h.finish hne hinner
            have hlater := ihlen _ (hlen ▸ hless) hk.stands (hk.room.trans hroom)
              (hk.unwinding.trans hflag) (hk.depth.symm ▸ hdepth) rfl
            rw [then_of_ok hdecl, itemsBehind_of_lowered way found
              (hk.unwinding.trans hflag), Parse.bind_of_ok hinner]
            refine .of_kept hk ?_
            cases found with
            | some s => exact hlater.bind fun ss _ _ _ hk' => .pure hk'.stands _
            | none =>
                rw [Parse.itemsBehind, ← bind_pure (Parse.items n)]
                exact hlater.bind fun ss _ _ _ hk' => .pure hk'.stands ss
          · rw [then_of_ok hdecl, itemsBehind_of_raised way none hraised,
              Parse.bind_of_error hinner]
            exact .unwinding hstands hback hraised hexcess

theorem mirrors_block (h : Stands way stop w c) (hroom : w.room way = n)
    (hflag : w.unwinding = false) (hdepth : 0 < w.depth) {brace : Token}
    (hbrace : way.previous w = some (.ok brace, w)) :
    Mirrors way stop w (way.block w) (Parse.enclosed n brace c) := by
  rw [Way.block, then_of_ok hbrace]
  exact (mirrors_items ih h hroom hflag hdepth).bind fun ss _ _ _ hk =>
    mirrors_closing hk.stands .rightBrace (by simp) _

theorem mirrors_branch (h : Stands way stop w c) (hroom : w.room way = n)
    (hflag : w.unwinding = false) (hdepth : 0 ≤ w.depth) {keyword : Token}
    (hkeyword : way.previous w = some (.ok keyword, w)) :
    Mirrors way stop w (way.branch w) (Parse.branched n keyword c) := by
  have hstatement : ∀ {v d}, Kept way stop w v d →
      Mirrors way stop v (way.statement v) (Parse.statement n d) := fun hk =>
    ih _ _ hk.stands (hk.room.trans hroom) (hk.unwinding.trans hflag)
      (hk.depth.symm ▸ hdepth)
  rw [Way.branch, then_of_ok hkeyword]
  refine (h.consume .leftParen (by simp)).bind fun _ w₁ c₁ _ hk₁ => ?_
  have hcond := hk₁.stands.expression
  rw [hk₁.room, hroom] at hcond
  refine hcond.bind fun cond w₂ c₂ _ hk₂ => ?_
  refine (hk₂.stands.consume .rightParen (by simp)).bind fun _ w₃ c₃ _ hk₃ => ?_
  have hk₁₃ := (hk₁.trans hk₂).trans hk₃
  refine (hstatement hk₁₃).bind fun yes w₄ c₄ _ hk₄ => ?_
  rw [Parse.otherwise]
  rcases hk₄.stands.accept_one .kwElse with ⟨t, rest, hrest, hwalk, hread⟩ | ⟨hwalk, hread⟩
  · have hnext := hk₄.stands.kept_next hrest
    rw [then_congr (if_of_true hwalk), Parse.bind_of_ok hread]
    exact .of_kept hnext ((hstatement ((hk₁₃.trans hk₄).trans hnext)).bind
      fun no _ _ _ hk => .pure hk.stands _)
  · rw [then_congr (if_of_false hwalk), Parse.bind_of_ok hread]
    exact .pure hk₄.stands _

theorem mirrors_stated (h : Stands way stop w c) (hroom : w.room way = n)
    (hflag : w.unwinding = false) (hdepth : 0 < w.depth) :
    Mirrors way stop w (stated way w) (Parse.statement (n + 1) c) := by
  have hexpression := h.expressionStatement
  rw [hroom] at hexpression
  cases hrest : c.rest with
  | nil =>
      have hnone : ∀ kinds, way.accept kinds w = some (.ok false, w) := h.accept_of_nil hrest
      rw [stated, if_of_false (hnone _), if_of_false (hnone _), if_of_false (hnone _),
        Parse.statement_of_nil n hrest h.finish]
      exact hexpression
  | cons t rest =>
      have hnext := h.kept_next hrest
      have hprevious := h.previous_next hrest
      have hsame := hnext.room.trans hroom
      rw [stated, Parse.statement_of_cons n hrest]
      by_cases hprint : t.kind = .kwPrint
      · have hprinted := hnext.stands.printStatement hprevious
        rw [hsame] at hprinted
        rw [if_of_true (h.accept_of_mem hrest (by simp [hprint])), hprint]
        exact .of_kept hnext hprinted
      rw [if_of_false (h.accept_of_not_mem hrest (by simpa using hprint))]
      by_cases hblock : t.kind = .leftBrace
      · rw [if_of_true (h.accept_of_mem hrest (by simp [hblock])), hblock]
        exact .of_kept hnext (mirrors_block ih hnext.stands hsame hflag hdepth hprevious)
      rw [if_of_false (h.accept_of_not_mem hrest (by simpa using hblock))]
      by_cases hbranch : t.kind = .kwIf
      · rw [if_of_true (h.accept_of_mem hrest (by simp [hbranch])), hbranch]
        exact .of_kept hnext (mirrors_branch ih hnext.stands hsame hflag hdepth.le hprevious)
      rw [if_of_false (h.accept_of_not_mem hrest (by simpa using hbranch))]
      split
      · next hk => exact absurd hk hprint
      · next hk => exact absurd hk hblock
      · next hk => exact absurd hk hbranch
      · exact hexpression

end Statements

theorem onStatements (way : Way) (stop n : Nat) : OnStatements way stop n := by
  induction n with
  | zero =>
      intro w c h hroom hflag hdepth
      rw [statement_eq, then_of_error (nestStatement_of_full h hroom)]
      exact .tooDeep ⟨h.place, h.ahead, h.rest, h.finish, h.reports⟩ rfl rfl rfl rfl
  | succ n ih =>
      intro w c h hroom hflag hdepth
      rw [statement_eq, then_of_ok (nestStatement_of_room way hroom)]
      exact (mirrors_stated ih (h.withDepth _) (Walker.room_deeper hroom) hflag
        (Int.lt_add_one_of_le hdepth)).unnested

/-! ## The whole text -/

/-- A declaration of the whole text takes a token at least, and leaves the walker as it was, apart
from place and reports. -/
theorem round (h : Stands way stop w c) (hflag : w.unwinding = false)
    (hdepth : w.depth = 0) (hne : c.rest ≠ []) : ∃ w', way.declaration w =
      some (.ok (Parse.outermost way.limit c).1, w') ∧
      Stands way stop w' (Parse.outermost way.limit c).2 ∧ w'.depth = 0 ∧ w'.unwinding = false ∧
      w.place < w'.place ∧ w'.excess ≤ w.excess + 1 := by
  have hroom : w.room way = way.limit := by
    unfold Walker.room
    omega
  obtain ⟨w', hdecl, hstands, hdepth', hflag', hexcess⟩ := declaration_outermost hflag hdepth
    (mirrors_attempt (onStatements way stop way.limit) h hroom hflag hdepth.ge)
  have hless := Parse.outermost_shrinks way.limit h.finish hne
  have hplace := h.place
  have hplace' := hstands.place
  exact ⟨w', hdecl, hstands, hdepth', hflag', by omega, hexcess⟩

/-- The walk over all declarations ends at the end mark. -/
theorem program_walks (h : Stands way stop w c) (hflag : w.unwinding = false)
    (hdepth : w.depth = 0) :
    ∃ w', way.program w = some (.ok (Parse.program way.limit c).1, w') ∧
      Stands way stop w' (Parse.program way.limit c).2 ∧ w'.depth = 0 ∧ w'.unwinding = false := by
  have hend := h.finish
  induction c, hend using Parse.program_induction way.limit generalizing w with
  | done c _ hnil =>
      have hatEnd := h.atEnd
      rw [hnil] at hatEnd
      rw [Way.program, if_of_true hatEnd, Parse.program_of_nil way.limit hnil]
      exact ⟨w, rfl, h, hdepth, hflag⟩
  | next c hend _ hne ih =>
      have hatEnd := h.atEnd
      obtain ⟨w₁, hdecl, hstands, hdepth₁, hflag₁, -⟩ := round h hflag hdepth hne
      obtain ⟨w₂, hprogram, hstands₂, hdepth₂, hflag₂⟩ := ih hstands hflag₁ hdepth₁
      rw [List.isEmpty_eq_false_iff.mpr hne] at hatEnd
      rw [Way.program, if_of_false hatEnd, then_of_ok hdecl, then_of_ok hprogram,
        Parse.program_of_ne_nil way.limit hend hne]
      exact ⟨w₂, rfl, hstands₂, hdepth₂, hflag₂⟩

end Walk

end Scribe
