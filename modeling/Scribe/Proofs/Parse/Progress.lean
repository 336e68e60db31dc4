import Scribe.Proofs.Parse.Advance

/-!
# Progress

What succeeds has taken a token. The budgets of the loops therefore suffice, and the loops obey
equations that do not mention them.
-/

namespace Scribe

namespace Parse

/-! ## What succeeds takes a token -/

def Consumes (p : Production α) : Prop :=
  ∀ c a c', c.finish.isEnd → p c = .ok a c' → c'.rest.length < c.rest.length

theorem operand_consumes (n : Nat) : Consumes (operand n) := by
  intro c e c' hend h
  have hstable := advances_stableThroughout.toStable
  have hall := hstable.onExpressions
  cases hrest : c.rest with
  | nil =>
      rw [operand_of_nil n hrest hend] at h
      cases h
  | cons t rest =>
      have hbehind : ∀ {p : Production Expr}, Advances anything p { c with rest } →
          p { c with rest } = .ok e c' → c'.rest.length < (t :: rest).length :=
        fun hp hrun => Nat.lt_succ_of_le (hp.ahead_of_ok hrun).rest_length
      rw [operand_of_cons n hrest] at h
      cases hopen : opening t with
      | sign =>
          rw [hopen] at h
          exact hbehind (hstable.prefixed (fun m _ => hall m) t _ hend) h
      | constant v =>
          rw [hopen] at h
          cases h
          exact Nat.lt_succ_self _
      | name =>
          rw [hopen] at h
          cases h
          exact Nat.lt_succ_self _
      | group =>
          rw [hopen] at h
          exact hbehind (hstable.grouped (hall n).expression _ hend) h
      | array =>
          rw [hopen] at h
          exact hbehind (hstable.listed (hall n).expression t _ hend) h
      | other =>
          rw [hopen] at h
          cases h

theorem Consumes.bind {p : Production α} {f : α → Production β} (hp : Consumes p)
    (hadv : ∀ c, c.finish.isEnd → Advances anything p c)
    (hf : ∀ a c, c.finish.isEnd → Advances anything (f a) c) : Consumes (p >>= f) := by
  intro c b c' hend h
  obtain ⟨a, d, hpa, hfa⟩ := bind_eq_ok.mp h
  have hfinish := ((hadv c hend).ahead_of_ok hpa).finish
  have hlen := ((hf a d (hfinish ▸ hend)).ahead_of_ok hfa).rest_length
  have hlt := hp c a d hend hpa
  omega

theorem expression_consumes (n : Nat) : Consumes (expression n) := by
  have hstable := advances_stableThroughout.toStable
  cases n with
  | zero =>
      intro c e c' _ h
      rw [expression_zero] at h
      cases h
  | succ m =>
      have hm := hstable.onExpressions m
      rw [expression_succ]
      refine Consumes.bind ?_ (hstable.climb hm Tier.all) (hstable.assigned hm)
      exact (operand_consumes m).bind hm.operand fun first => hm.chains Tier.all first

theorem evaluated_consumes (n : Nat) : Consumes (evaluated n) :=
  (expression_consumes n).bind (advances_stableThroughout.expression n) fun _ c _ =>
    advances_stableThroughout.closing _ _ _ c

theorem statement_consumes (n : Nat) : Consumes (statement n) := by
  intro c s c' hend h
  cases n with
  | zero => cases h
  | succ n =>
      cases hrest : c.rest with
      | nil =>
          rw [statement_of_nil n hrest hend] at h
          exact hrest ▸ evaluated_consumes n c s c' hend h
      | cons t rest =>
          have hbehind : ∀ {p : Production Stmt}, Advances anything p { c with rest } →
              p { c with rest } = .ok s c' → c'.rest.length < (t :: rest).length :=
            fun hp hrun => Nat.lt_succ_of_le (hp.ahead_of_ok hrun).rest_length
          rw [statement_of_cons n hrest] at h
          split at h
          · exact hbehind (advances_stableThroughout.printed n t _ hend) h
          · exact hbehind (advances_stableThroughout.enclosed (statement_advances n) t _ hend) h
          · exact hbehind (advances_stableThroughout.branched (statement_advances n) t _ hend) h
          · exact hrest ▸ evaluated_consumes n c s c' hend h

theorem declaration_consumes (n : Nat) : Consumes (declaration n) := by
  intro c s c' hend h
  cases hrest : c.rest with
  | nil =>
      have hacc : accept introduces c = .ok none c := accept_of_nil introduces hrest
      have hrun : declaration n c = statement n c := bind_of_ok hacc
      rw [hrun] at h
      exact hrest ▸ statement_consumes n c s c' hend h
  | cons t rest =>
      rw [declaration_of_cons n hrest] at h
      split at h
      · have hahead := (advances_stableThroughout.declared n { c with rest } hend).ahead_of_ok h
        exact Nat.lt_succ_of_le hahead.rest_length
      · exact hrest ▸ statement_consumes n c s c' hend h

/-- Skipping from where a declaration gave up leaves fewer tokens than there were before it. -/
theorem synchronize_behind {c d : Cursor} (h : d.rest.length ≤ c.rest.length) (hne : c.rest ≠ []) :
    (synchronize d).rest.length < c.rest.length := by
  by_cases hd : d.rest = []
  · have hskip := (synchronize_ahead d).rest_length
    have hpos := List.length_pos_iff.mpr hne
    rw [hd, List.length_nil] at hskip
    omega
  · have hskip := synchronize_shrinks d hd
    omega

/-- A declaration of a block takes a token, also one that is skipped. -/
theorem inner_consumes (n : Nat) {c c' : Cursor} {found : Option Stmt} (hend : c.finish.isEnd)
    (hne : c.rest ≠ []) (h : inner (declaration n) c = .ok found c') :
    c'.rest.length < c.rest.length := by
  cases hbody : declaration n c with
  | ok s d =>
      rw [inner_of_ok hbody] at h
      cases h
      exact declaration_consumes n c s _ hend hbody
  | error e d =>
      have hlen := ((declaration_advances n c hend).ahead_of_error hbody).rest_length
      cases e with
      | failed diag =>
          rw [inner_of_failed hbody] at h
          cases h
          exact synchronize_behind hlen hne
      | tooDeep diag =>
          rw [inner_of_tooDeep hbody] at h
          cases h
      | unwinding =>
          rw [inner_of_unwinding hbody] at h
          cases h

def abandoned : Fault → Cursor → Cursor
  | .failed d, c => synchronize (c.report d)
  | .tooDeep d, c => synchronize (c.report d)
  | .unwinding, c => synchronize c

theorem outermost_of_ok {limit : Nat} {c c' : Cursor} {s : Stmt}
    (h : declaration limit c = .ok s c') : outermost limit c = (some s, c') := by
  rw [declaration] at h
  simp only [outermost, h]

theorem outermost_of_error {limit : Nat} {c c' : Cursor} {e : Fault}
    (h : declaration limit c = .error e c') : outermost limit c = (none, abandoned e c') := by
  rw [declaration] at h
  cases e <;> simp only [outermost, h, abandoned]

theorem abandoned_ahead (e : Fault) (c : Cursor) : Ahead anything c (abandoned e c) := by
  cases e with
  | failed d => exact (Ahead.report anything c d).trans (synchronize_ahead _)
  | tooDeep d => exact (Ahead.report anything c d).trans (synchronize_ahead _)
  | unwinding => exact synchronize_ahead c

theorem outermost_ahead (limit : Nat) {c : Cursor} (hend : c.finish.isEnd) :
    Ahead anything c (outermost limit c).2 := by
  cases hbody : declaration limit c with
  | ok s d =>
      rw [outermost_of_ok hbody]
      exact (declaration_advances limit c hend).ahead_of_ok hbody
  | error e d =>
      rw [outermost_of_error hbody]
      exact ((declaration_advances limit c hend).ahead_of_error hbody).trans (abandoned_ahead e d)

/-- A declaration of the whole text is not skipped without a report. -/
theorem outermost_reports (limit : Nat) {c : Cursor} (hend : c.finish.isEnd)
    (h : (outermost limit c).1 = none) :
    c.reports.length < (outermost limit c).2.reports.length := by
  cases hbody : declaration limit c with
  | ok s d =>
      rw [outermost_of_ok hbody] at h
      cases h
  | error e d =>
      have hadv := declaration_advances limit c hend
      have hlen := (hadv.ahead_of_error hbody).reports_length
      rw [outermost_of_error hbody]
      cases e with
      | failed diag => simpa [abandoned, synchronize_reports, Cursor.report] using by omega
      | tooDeep diag => simpa [abandoned, synchronize_reports, Cursor.report] using by omega
      | unwinding => simpa [abandoned, synchronize_reports] using hadv.unwinding d hbody

theorem outermost_shrinks (limit : Nat) {c : Cursor} (hend : c.finish.isEnd) (hne : c.rest ≠ []) :
    (outermost limit c).2.rest.length < c.rest.length := by
  cases hbody : declaration limit c with
  | ok s d =>
      rw [outermost_of_ok hbody]
      exact declaration_consumes limit c s d hend hbody
  | error e d =>
      have hlen := ((declaration_advances limit c hend).ahead_of_error hbody).rest_length
      rw [outermost_of_error hbody]
      cases e with
      | failed diag => exact synchronize_behind (d := d.report diag) hlen hne
      | tooDeep diag => exact synchronize_behind (d := d.report diag) hlen hne
      | unwinding => exact synchronize_behind hlen hne

/-! ## The loops without their budgets -/

theorem commaSeparated_done {item : Production α} (budget : List Token) (done : List α) :
    commaSeparated item budget done =
      commaSeparated item budget [] >>= fun as => pure (done.reverse ++ as) := by
  induction budget generalizing done with
  | nil => simp [commaSeparated]
  | cons b budget ih =>
      simp only [commaSeparated, bind_assoc]
      congr 1
      funext a
      congr 1
      funext found
      cases found with
      | none => simp
      | some t =>
          show commaSeparated item budget (a :: done) =
            commaSeparated item budget [a] >>= fun as => pure (done.reverse ++ as)
          rw [ih (a :: done), ih [a]]
          simp

theorem commaSeparated_budget (n : Nat) {budget budget' : List Token} {c : Cursor}
    (hend : c.finish.isEnd) (h : c.rest.length < budget.length)
    (h' : c.rest.length < budget'.length) :
    commaSeparated (expression n) budget [] c = commaSeparated (expression n) budget' [] c := by
  induction budget generalizing budget' c with
  | nil => exact absurd h (Nat.not_lt_zero _)
  | cons b budget ih =>
      cases budget' with
      | nil => exact absurd h' (Nat.not_lt_zero _)
      | cons b' budget' =>
          simp only [List.length_cons] at h h'
          simp only [commaSeparated]
          cases hitem : expression n c with
          | error e c₁ => rw [bind_of_error hitem, bind_of_error hitem]
          | ok e c₁ =>
              have hshort := expression_consumes n c e c₁ hend hitem
              have hfinish := ((expression_advances n c hend).ahead_of_ok hitem).finish
              rw [bind_of_ok hitem, bind_of_ok hitem]
              rcases accept_cases (· == .comma) c₁ with ⟨t, rest, hrest, -, hacc⟩ | ⟨-, hacc⟩
              · have hlen : rest.length < c₁.rest.length := by rw [hrest]; exact Nat.lt_succ_self _
                have hsame : commaSeparated (expression n) budget [] { c₁ with rest } =
                    commaSeparated (expression n) budget' [] { c₁ with rest } :=
                  ih (hfinish ▸ hend) (Nat.lt_of_lt_of_le hlen (by omega))
                    (Nat.lt_of_lt_of_le hlen (by omega))
                rw [bind_of_ok hacc, bind_of_ok hacc]
                simp only [commaSeparated_done _ [e], bind, EStateM.bind, hsame]
              · rw [bind_of_ok hacc, bind_of_ok hacc]

def elementsBehind (n : Nat) (bracket : Token) (e : Expr) : Option Token → Production (List Expr)
  | some _ => do
      let es ← elements n bracket
      pure (e :: es)
  | none => pure [e]

theorem elements_eq (n : Nat) (bracket : Token) {c : Cursor} (hend : c.finish.isEnd) :
    elements n bracket c =
      (expression n >>= fun e => accept (· == .comma) >>= elementsBehind n bracket e) c := by
  simp only [elements, tokensLeft_bind, commaSeparated]
  cases hitem : expression n c with
  | error e c₁ => rw [bind_of_error hitem, bind_of_error hitem]
  | ok e c₁ =>
      have hshort := expression_consumes n c e c₁ hend hitem
      have hfinish := ((expression_advances n c hend).ahead_of_ok hitem).finish
      rw [bind_of_ok hitem, bind_of_ok hitem]
      rcases accept_cases (· == .comma) c₁ with ⟨t, rest, hrest, -, hacc⟩ | ⟨-, hacc⟩
      · have hlen : rest.length < c₁.rest.length := by rw [hrest]; exact Nat.lt_succ_self _
        have hsame : commaSeparated (expression n) c.rest [] { c₁ with rest } =
            elements n bracket { c₁ with rest } :=
          commaSeparated_budget n (hfinish ▸ hend) (Nat.lt_trans hlen hshort)
            (Nat.lt_succ_self _)
        rw [bind_of_ok hacc, bind_of_ok hacc]
        simp only [commaSeparated_done _ [e], elementsBehind, bind, EStateM.bind, hsame]
        rfl
      · rw [bind_of_ok hacc, bind_of_ok hacc]
        rfl

theorem blockItems_done {item : Production (Option Stmt)} (budget : List Token)
    (done : List Stmt) :
    blockItems item budget done =
      blockItems item budget [] >>= fun ss => pure (done.reverse ++ ss) := by
  induction budget generalizing done with
  | nil => simp [blockItems]
  | cons b budget ih =>
      simp only [blockItems_cons, bind_assoc]
      congr 1
      funext t
      cases closes t with
      | true => simp
      | false =>
          simp only [Bool.false_eq_true, if_false, bind_assoc]
          congr 1
          funext found
          cases found with
          | none => exact ih done
          | some s =>
              show blockItems item budget (s :: done) =
                blockItems item budget [s] >>= fun ss => pure (done.reverse ++ ss)
              rw [ih (s :: done), ih [s]]
              simp

theorem closes_of_nil {c : Cursor} (h : c.rest = []) (hend : c.finish.isEnd) :
    closes c.peek = true := by
  rw [Cursor.peek_of_nil h]
  simp [closes, hend]

theorem rest_ne_nil_of_not_closes {c : Cursor} (hend : c.finish.isEnd) (h : closes c.peek = false) :
    c.rest ≠ [] := by
  intro hrest
  rw [closes_of_nil hrest hend] at h
  cases h

theorem inner_advances (n : Nat) (c : Cursor) (hend : c.finish.isEnd) :
    Advances anything (inner (declaration n)) c :=
  (declaration_advances n c hend).inner

theorem blockItems_of_closes (item : Production (Option Stmt)) (budget : List Token) {c : Cursor}
    (h : closes c.peek = true) : blockItems item budget [] c = .ok [] c := by
  cases budget with
  | nil => rfl
  | cons b budget => rw [blockItems_cons, peek_bind, if_pos h, pure_apply, List.reverse_nil]

theorem blockItems_budget (n : Nat) {budget budget' : List Token} {c : Cursor}
    (hend : c.finish.isEnd) (h : c.rest.length ≤ budget.length)
    (h' : c.rest.length ≤ budget'.length) :
    blockItems (inner (declaration n)) budget [] c =
      blockItems (inner (declaration n)) budget' [] c := by
  induction budget generalizing budget' c with
  | nil =>
      have hnil : c.rest = [] := List.length_eq_zero_iff.mp (Nat.le_zero.mp h)
      have hclose := closes_of_nil hnil hend
      rw [blockItems_of_closes _ _ hclose, blockItems_of_closes _ _ hclose]
  | cons b budget ih =>
      cases hclose : closes c.peek with
      | true => rw [blockItems_of_closes _ _ hclose, blockItems_of_closes _ _ hclose]
      | false =>
          have hne := rest_ne_nil_of_not_closes hend hclose
          cases budget' with
          | nil => exact absurd (List.length_eq_zero_iff.mp (Nat.le_zero.mp h')) hne
          | cons b' budget' =>
              rw [blockItems_cons, blockItems_cons, peek_bind, peek_bind, hclose]
              simp only [Bool.false_eq_true, if_false]
              cases hitem : inner (declaration n) c with
              | error e c₁ => rw [bind_of_error hitem, bind_of_error hitem]
              | ok found c₁ =>
                  have hshort := inner_consumes n hend hne hitem
                  have hfinish := ((inner_advances n c hend).ahead_of_ok hitem).finish
                  have hsame : blockItems (inner (declaration n)) budget [] c₁ =
                      blockItems (inner (declaration n)) budget' [] c₁ := by
                    simp only [List.length_cons] at h h'
                    exact ih (hfinish ▸ hend) (by omega) (by omega)
                  rw [bind_of_ok hitem, bind_of_ok hitem]
                  cases found with
                  | none => exact hsame
                  | some s =>
                      simp only [kept, blockItems_done _ [s], bind, EStateM.bind, hsame]

def itemsBehind (n : Nat) : Option Stmt → Production (List Stmt)
  | some s => do
      let ss ← items n
      pure (s :: ss)
  | none => items n

theorem items_of_closes (n : Nat) {c : Cursor} (h : closes c.peek = true) :
    items n c = .ok [] c := by
  rw [items, tokensLeft_bind]
  exact blockItems_of_closes _ c.rest h

theorem items_of_not_closes (n : Nat) {c : Cursor} (hend : c.finish.isEnd)
    (h : closes c.peek = false) :
    items n c = (inner (declaration n) >>= itemsBehind n) c := by
  have hne := rest_ne_nil_of_not_closes hend h
  cases hrest : c.rest with
  | nil => exact absurd hrest hne
  | cons t rest =>
      simp only [items, tokensLeft_bind, hrest]
      rw [blockItems_cons, peek_bind, h]
      simp only [Bool.false_eq_true, if_false]
      show (inner (declaration n) >>= _) c = _
      cases hitem : inner (declaration n) c with
      | error e c₁ => rw [bind_of_error hitem, bind_of_error hitem]
      | ok found c₁ =>
          have hshort := inner_consumes n hend hne hitem
          have hfinish := ((inner_advances n c hend).ahead_of_ok hitem).finish
          rw [hrest, List.length_cons] at hshort
          have hsame : blockItems (inner (declaration n)) rest [] c₁ = items n c₁ :=
            blockItems_budget n (hfinish ▸ hend) (Nat.le_of_lt_succ hshort) (Nat.le_refl _)
          rw [bind_of_ok hitem, bind_of_ok hitem]
          cases found with
          | none => exact hsame
          | some s =>
              show blockItems (inner (declaration n)) rest [s] c₁ = _
              simp only [blockItems_done _ [s], itemsBehind, bind, EStateM.bind, hsame]
              rfl

/-- The statements of all tokens left, and the cursor at their end. -/
def program (limit : Nat) (c : Cursor) : List Stmt × Cursor :=
  declarations limit c.rest.length [] c

/-- Puts a declaration, if it was kept, in front of those behind it. -/
def withFirst (found : Option Stmt) (later : List Stmt × Cursor) : List Stmt × Cursor :=
  (found.toList ++ later.1, later.2)

theorem declarations_succ (limit fuel : Nat) (done : List Stmt) {c : Cursor} (hne : c.rest ≠ []) :
    declarations limit (fuel + 1) done c =
      declarations limit fuel ((outermost limit c).1.toList ++ done) (outermost limit c).2 := by
  have hempty : c.rest.isEmpty = false := by simpa using hne
  rw [declarations, hempty]
  rcases outermost limit c with ⟨_ | s, d⟩ <;> rfl

theorem declarations_of_nil (limit fuel : Nat) (done : List Stmt) {c : Cursor} (h : c.rest = []) :
    declarations limit fuel done c = (done.reverse, c) := by
  cases fuel with
  | zero => rfl
  | succ fuel => simp [declarations, h]

theorem declarations_done (limit fuel : Nat) (done : List Stmt) (c : Cursor) :
    declarations limit fuel done c =
      (done.reverse ++ (declarations limit fuel [] c).1, (declarations limit fuel [] c).2) := by
  induction fuel generalizing done c with
  | zero => simp [declarations]
  | succ fuel ih =>
      by_cases hne : c.rest = []
      · simp [declarations_of_nil _ _ _ hne]
      · rw [declarations_succ _ _ _ hne, declarations_succ _ _ _ hne, ih,
          ih ((outermost limit c).1.toList ++ [])]
        cases (outermost limit c).1 <;> simp

theorem declarations_fuel (limit : Nat) {fuel : Nat} {c : Cursor} (hend : c.finish.isEnd)
    (h : c.rest.length ≤ fuel) : declarations limit fuel [] c = program limit c := by
  induction hlen : c.rest.length using Nat.strongRecOn generalizing c fuel with
  | ind len ih =>
      by_cases hne : c.rest = []
      · rw [program, declarations_of_nil _ _ _ hne, declarations_of_nil _ _ _ hne]
      · have hshrinks := outermost_shrinks limit hend hne
        have hfinish := (outermost_ahead limit hend).finish
        have hpos := List.length_pos_iff.mpr hne
        obtain ⟨fuel, rfl⟩ := Nat.exists_eq_succ_of_ne_zero (n := fuel) (by omega)
        obtain ⟨k, hk⟩ := Nat.exists_eq_succ_of_ne_zero (n := c.rest.length) (by omega)
        rw [program, hk, declarations_succ _ _ _ hne, declarations_succ _ _ _ hne,
          declarations_done, declarations_done _ k,
          ih _ (by omega) (hfinish ▸ hend) (by omega) rfl,
          ih _ (by omega) (hfinish ▸ hend) (by omega) rfl]

theorem program_of_nil (limit : Nat) {c : Cursor} (h : c.rest = []) : program limit c = ([], c) :=
  declarations_of_nil limit _ [] h

theorem program_of_ne_nil (limit : Nat) {c : Cursor} (hend : c.finish.isEnd) (hne : c.rest ≠ []) :
    program limit c = withFirst (outermost limit c).1 (program limit (outermost limit c).2) := by
  have hshrinks := outermost_shrinks limit hend hne
  have hfinish := (outermost_ahead limit hend).finish
  obtain ⟨k, hk⟩ := Nat.exists_eq_succ_of_ne_zero (mt List.length_eq_zero_iff.mp hne)
  rw [program, hk, declarations_succ _ _ _ hne, declarations_done,
    declarations_fuel limit (hfinish ▸ hend) (by omega)]
  cases (outermost limit c).1 <;> rfl

theorem program_of_ok (limit : Nat) {c c' : Cursor} {s : Stmt} (hend : c.finish.isEnd)
    (hne : c.rest ≠ []) (h : declaration limit c = .ok s c') :
    program limit c = (s :: (program limit c').1, (program limit c').2) := by
  rw [program_of_ne_nil limit hend hne, outermost_of_ok h]
  rfl

/-- What holds when all tokens are read, and in front of a declaration if it holds behind it, holds
throughout a program. -/
theorem program_induction (limit : Nat) {motive : (c : Cursor) → c.finish.isEnd = true → Prop}
    (done : ∀ c hend, c.rest = [] → motive c hend)
    (next : ∀ c hend hend', c.rest ≠ [] → motive (outermost limit c).2 hend' → motive c hend)
    (c : Cursor) (hend : c.finish.isEnd = true) : motive c hend := by
  induction hlen : c.rest.length using Nat.strongRecOn generalizing c with
  | ind len ih =>
      by_cases hne : c.rest = []
      · exact done c hend hne
      · have hshrinks := outermost_shrinks limit hend hne
        have hend' := (outermost_ahead limit hend).finish ▸ hend
        exact next c hend hend' hne (ih _ (by omega) _ hend' rfl)

theorem program_ahead (limit : Nat) {c : Cursor} (hend : c.finish.isEnd) :
    Ahead anything c (program limit c).2 := by
  induction c, hend using program_induction limit with
  | done c _ hnil =>
      rw [program_of_nil limit hnil]
      exact .refl anything c
  | next c hend _ hne ih =>
      rw [program_of_ne_nil limit hend hne]
      exact (outermost_ahead limit hend).trans ih

theorem parse_eq (tokens : List Token) (limit : Nat) :
    parse tokens limit =
      ⟨(program limit (start tokens)).1, (program limit (start tokens)).2.reports.reverse⟩ := rfl

/-! ## Where parsing starts -/

/-- Tokens before their only end mark are all read. -/
theorem start_of_body {body : List Token} {finish : Token} (hbody : ∀ t ∈ body, t.isEnd = false)
    (hfinish : finish.isEnd) : start (body ++ [finish]) = ⟨body, finish, []⟩ := by
  have hrest : (body ++ [finish]).takeWhile (!Token.isEnd ·) = body := by
    rw [List.takeWhile_append_of_pos (by simpa using hbody)]
    simp [hfinish]
  have hmark : endMark (body ++ [finish]) = finish := by
    have hnone : body.find? Token.isEnd = none := List.find?_eq_none.mpr (by simpa using hbody)
    simp [endMark, List.find?_append, hnone, hfinish]
  rw [start, hrest, hmark]

theorem start_of_no_mark {tokens : List Token} (h : ∀ t ∈ tokens, t.isEnd = false) :
    start tokens = ⟨tokens, endMark tokens, []⟩ := by
  have hrest : tokens.takeWhile (!Token.isEnd ·) = tokens := by
    have happ : (tokens ++ []).takeWhile (!Token.isEnd ·) = tokens ++ [] :=
      List.takeWhile_append_of_pos (by simpa using h)
    rwa [List.append_nil] at happ
  rw [start, hrest]

theorem endMark_isEnd (tokens : List Token) : (endMark tokens).isEnd := by
  unfold endMark
  cases hfind : tokens.find? Token.isEnd with
  | none => rfl
  | some t => exact List.find?_some hfind

theorem endMark_append {first second : List Token} (hfirst : ∀ t ∈ first, t.isEnd = false)
    (hne : second ≠ []) : endMark (first ++ second) = endMark second := by
  have hnone : first.find? Token.isEnd = none := List.find?_eq_none.mpr (by simpa using hfirst)
  rw [endMark, endMark, List.find?_append, hnone, Option.none_or, List.getLast?_append,
    List.getLast?_eq_some_getLast hne, Option.some_or]

end Parse

end Scribe
