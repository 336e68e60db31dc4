import Scribe.Proofs.Machine.Step

/-!
# The levels of a run

How many levels a run enters depends on the tree and on what is found on the way. A run that is
given as many does not notice the limit, and every other run ends with excess nesting.
-/

namespace Scribe

namespace Upshot

/-- The run was ended by its limit on nesting. -/
def TooDeep (r : Upshot α) : Prop :=
  ∃ line m, r = .error (.fault (Diagnostic.runtime line .nestingTooDeep)) m

/-- The levels that a second part enters, if the first one leads to it. -/
def behind (r : Upshot α) (next : α → Machine → Nat) : Nat :=
  match r with
  | .ok a m => next a m
  | .error _ _ => 0

end Upshot

/-! ## The height of a tree -/

mutual

/-- Nodes on the longest path into an expression. -/
def Expr.height : Expr → Nat
  | .absent => 0
  | .literal _ _ => 1
  | .reference _ => 1
  | .assign _ e => e.height + 1
  | .unary _ e => e.height + 1
  | .binary left _ right => max left.height right.height + 1
  | .array _ elems => Expr.heights elems + 1

def Expr.heights : List Expr → Nat
  | [] => 0
  | e :: es => max e.height (Expr.heights es)

end

mutual

def Stmt.height : Stmt → Nat
  | .absent => 0
  | .print _ e => e.height + 1
  | .expression e => e.height + 1
  | .declare _ init => init.height + 1
  | .block _ stmts => Stmt.heights stmts + 1
  | .branch _ cond yes no => max cond.height (max yes.height no.height) + 1

def Stmt.heights : List Stmt → Nat
  | [] => 0
  | s :: ss => max s.height (Stmt.heights ss)

end

/-! ## The levels a run enters -/

/-- How an expression evaluates with levels enough for all of it. -/
def Expr.freely (o : Options) (e : Expr) (m : Machine) : Upshot Value :=
  evaluate { o with limit := m.depth + e.height } e m

mutual

def Expr.levels (o : Options) : Expr → Machine → Nat
  | .absent, _ => 0
  | .literal _ _, _ => 1
  | .reference _, _ => 1
  | .assign _ e, m => e.levels o m.deeper + 1
  | .unary _ e, m => e.levels o m.deeper + 1
  | .binary left _ right, m =>
      max (left.levels o m.deeper)
        (Upshot.behind (left.freely o m.deeper) fun _ m => right.levels o m) + 1
  | .array _ elems, m =>
      if o.arrayElements then Expr.levelsAll o elems m.deeper + 1 else 1

def Expr.levelsAll (o : Options) : List Expr → Machine → Nat
  | [], _ => 0
  | e :: es, m =>
      max (e.levels o m) (Upshot.behind (e.freely o m) fun _ m => Expr.levelsAll o es m)

end

def Stmt.freely (o : Options) (s : Stmt) (m : Machine) : Upshot Unit :=
  execute { o with limit := m.depth + s.height } s m

def Machine.inBlock (o : Options) (m : Machine) : Machine :=
  if o.blockScope then { m with scopes := m.scopes.enclose } else m

mutual

def Stmt.levels (o : Options) : Stmt → Machine → Nat
  | .absent, _ => 0
  | .print keyword e, m => e.levels o (m.entered ((Stmt.print keyword e).event keyword.line)) + 1
  | .expression .absent, _ => 0
  | .expression e, m => e.levels o (m.entered ((Stmt.expression e).event e.line)) + 1
  | .declare name init, m =>
      init.levels o (m.entered ((Stmt.declare name init).event name.line)) + 1
  | .block brace stmts, m =>
      Stmt.levelsAll o stmts
        ((m.entered ((Stmt.block brace stmts).event brace.line)).inBlock o) + 1
  | .branch keyword cond yes no, m =>
      let inside := m.entered ((Stmt.branch keyword cond yes no).event keyword.line)
      max (cond.levels o inside)
        (Upshot.behind (cond.freely o inside) fun v m =>
          if v.truthy then yes.levels o m else no.levels o m) + 1

def Stmt.levelsAll (o : Options) : List Stmt → Machine → Nat
  | [], _ => 0
  | s :: ss, m =>
      max (s.levels o m) (Upshot.behind (s.freely o m) fun _ m => Stmt.levelsAll o ss m)

end

/-! ## Limits -/

/-- From `m`, a run whose limit admits `levels` more levels ends with `r`, whatever the limit, and
a run whose limit does not ends with excess nesting. -/
structure Uses (f : Nat → Action α) (m : Machine) (levels : Nat) (r : Upshot α) : Prop where
  enough : ∀ limit, m.depth + levels ≤ limit → f limit m = r
  short : ∀ limit, m.depth ≤ limit → limit < m.depth + levels → Upshot.TooDeep (f limit m)
  settled : ¬ Upshot.TooDeep r
  depth : (Upshot.machine r).depth = m.depth

theorem tooDeep_error {stop : Stop} {m : Machine} :
    Upshot.TooDeep (.error stop m : Upshot α) ↔
      ∃ line, stop = .fault (Diagnostic.runtime line .nestingTooDeep) := by
  constructor
  · rintro ⟨line, m', h⟩
    cases h
    exact ⟨line, rfl⟩
  · rintro ⟨line, rfl⟩
    exact ⟨line, m, rfl⟩

theorem tooDeep_andThen {f : Machine → Machine} {r : Upshot α} :
    Upshot.TooDeep (Upshot.andThen f r) ↔ Upshot.TooDeep r := by
  cases r with
  | ok a m =>
      constructor <;>
        · rintro ⟨line, m', h⟩
          cases h
  | error stop m => rw [Upshot.andThen, tooDeep_error, tooDeep_error]

theorem not_tooDeep_ok (a : α) (m : Machine) : ¬ Upshot.TooDeep (.ok a m : Upshot α) := by
  rintro ⟨line, m', h⟩
  cases h

theorem not_tooDeep_fault {line : Int} {cause : RuntimeCause} {m : Machine}
    (h : cause ≠ .nestingTooDeep) : ¬ Upshot.TooDeep (Action.fault line cause m : Upshot α) := by
  rintro ⟨line', m', hfault⟩
  simp only [Action.fault, Diagnostic.runtime] at hfault
  cases hfault
  exact h rfl

namespace Uses

variable {m : Machine} {levels : Nat}

theorem tooDeep_iff {f : Nat → Action α} {r : Upshot α} (h : Uses f m levels r) {limit : Nat}
    (hdepth : m.depth ≤ limit) : Upshot.TooDeep (f limit m) ↔ limit < m.depth + levels := by
  constructor
  · intro hdeep
    by_cases hle : m.depth + levels ≤ limit
    · rw [h.enough limit hle] at hdeep
      exact absurd hdeep h.settled
    · omega
  · exact h.short limit hdepth

theorem freely {f : Nat → Action α} {r : Upshot α} (h : Uses f m levels r) {height : Nat}
    (hle : levels ≤ height) : Uses f m levels (f (m.depth + height) m) := by
  rw [h.enough _ (by omega)]
  exact h

theorem constant {p : Action α} (hsettled : ¬ Upshot.TooDeep (p m))
    (hdepth : (Upshot.machine (p m)).depth = m.depth) : Uses (fun _ => p) m 0 (p m) where
  enough _ _ := rfl
  short limit hdepth hlimit := absurd hlimit (by omega)
  settled := hsettled
  depth := hdepth

theorem bind_of_ok {p : Nat → Action α} {f : Nat → α → Action β} {a : α} {m' : Machine}
    {levels' : Nat} {r : Upshot β} (hp : Uses p m levels (.ok a m'))
    (hf : Uses (fun limit => f limit a) m' levels' r) :
    Uses (fun limit => p limit >>= f limit) m (max levels levels') r := by
  have hdepth : m'.depth = m.depth := hp.depth
  have hrun : ∀ limit, m.depth + levels ≤ limit → (p limit >>= f limit) m = f limit a m' := by
    intro limit hlimit
    simp only [bind, EStateM.bind, hp.enough limit hlimit]
  refine ⟨?_, ?_, hf.settled, hf.depth.trans hdepth⟩
  · intro limit hlimit
    rw [hrun limit (by omega)]
    exact hf.enough limit (by omega)
  · intro limit hle hlimit
    by_cases henough : m.depth + levels ≤ limit
    · rw [hrun limit henough]
      exact hf.short limit (by omega) (by omega)
    · obtain ⟨line, d, hdeep⟩ := hp.short limit hle (by omega)
      exact ⟨line, d, by simp only [bind, EStateM.bind, hdeep]⟩

theorem bind_of_error {p : Nat → Action α} {f : Nat → α → Action β} {stop : Stop} {m' : Machine}
    (hp : Uses p m levels (.error stop m')) :
    Uses (fun limit => p limit >>= f limit) m levels (.error stop m') := by
  refine ⟨?_, ?_, ?_, hp.depth⟩
  · intro limit hlimit
    simp only [bind, EStateM.bind, hp.enough limit hlimit]
  · intro limit hle hlimit
    obtain ⟨line, d, hdeep⟩ := hp.short limit hle hlimit
    exact ⟨line, d, by simp only [bind, EStateM.bind, hdeep]⟩
  · have hsettled := hp.settled
    rw [tooDeep_error] at hsettled ⊢
    exact hsettled

/-- The levels of a sequence are those of its first part and of the second one behind it. -/
theorem bind {p : Nat → Action α} {f : Nat → α → Action β} {r : Upshot α}
    (next : α → Machine → Nat) (hp : Uses p m levels r)
    (hf : ∀ a m', r = .ok a m' → ∃ r', Uses (fun limit => f limit a) m' (next a m') r') :
    ∃ r', Uses (fun limit => p limit >>= f limit) m (max levels (Upshot.behind r next)) r' := by
  cases r with
  | ok a m' =>
      obtain ⟨r', hr'⟩ := hf a m' rfl
      exact ⟨r', hp.bind_of_ok hr'⟩
  | error stop m' => exact ⟨_, by simpa [Upshot.behind] using hp.bind_of_error⟩

theorem bindConstant {p : Nat → Action α} {q : α → Action β} {r : Upshot α}
    (hp : Uses p m levels r) (hq : ∀ a m', r = .ok a m' → ¬ Upshot.TooDeep (q a m') ∧
      (Upshot.machine (q a m')).depth = m'.depth) :
    ∃ r', Uses (fun limit => p limit >>= q) m levels r' := by
  cases r with
  | ok a m' =>
      obtain ⟨hsettled, hdepth⟩ := hq a m' rfl
      have hboth := hp.bind_of_ok (f := fun _ => q) (Uses.constant hsettled hdepth)
      rw [Nat.max_eq_left (Nat.zero_le levels)] at hboth
      exact ⟨_, hboth⟩
  | error stop m' => exact ⟨_, hp.bind_of_error⟩

theorem nested {f : Nat → Action α} {r : Upshot α} (line : Int)
    (h : Uses f m.deeper levels r) :
    Uses (fun limit => Action.nested limit line (f limit)) m (levels + 1)
      (Upshot.andThen Machine.shallower r) := by
  have hdeeper : m.deeper.depth = m.depth + 1 := rfl
  refine ⟨?_, ?_, mt tooDeep_andThen.mp h.settled, ?_⟩
  · intro limit hlimit
    have hroom : m.depth < limit := by omega
    rw [nested_eq line (f limit) hroom, h.enough limit (by omega)]
  · intro limit hle hlimit
    by_cases hroom : m.depth < limit
    · rw [nested_eq line (f limit) hroom, tooDeep_andThen]
      exact h.short limit (by omega) (by omega)
    · exact ⟨line, m, by simp only [Action.nested, if_neg hroom, Action.fault]⟩
  · rw [machine_andThen]
    exact Nat.sub_eq_of_eq_add h.depth

theorem inOwnScope {f : Nat → Action α} {r : Upshot α}
    (h : Uses f { m with scopes := m.scopes.enclose } levels r) :
    Uses (fun limit => Action.inOwnScope (f limit)) m levels (Upshot.andThen Machine.leave r) := by
  refine ⟨?_, ?_, mt tooDeep_andThen.mp h.settled, ?_⟩
  · intro limit hlimit
    rw [inOwnScope_eq, h.enough limit hlimit]
  · intro limit hle hlimit
    rw [inOwnScope_eq, tooDeep_andThen]
    exact h.short limit hle hlimit
  · rw [machine_andThen]
    exact h.depth

end Uses

/-! ## Expressions -/

theorem behind_le {r : Upshot α} {next : α → Machine → Nat} {height : Nat}
    (h : ∀ a m, next a m ≤ height) : Upshot.behind r next ≤ height := by
  cases r with
  | ok a m => exact h a m
  | error stop m => exact Nat.zero_le _

mutual

theorem Expr.levels_le_height (o : Options) : (e : Expr) → (m : Machine) → e.levels o m ≤ e.height
  | .absent, _ => Nat.le_refl _
  | .literal _ _, _ => Nat.le_refl _
  | .reference _, _ => Nat.le_refl _
  | .assign _ e, m => Nat.succ_le_succ (e.levels_le_height o m.deeper)
  | .unary _ e, m => Nat.succ_le_succ (e.levels_le_height o m.deeper)
  | .binary left _ right, m => by
      have hleft := left.levels_le_height o m.deeper
      have hright : Upshot.behind (left.freely o m.deeper) (fun _ m => right.levels o m) ≤
          right.height := behind_le fun _ m => right.levels_le_height o m
      simp only [Expr.levels, Expr.height]
      omega
  | .array _ elems, m => by
      have helems := Expr.levelsAll_le_heights o elems m.deeper
      simp only [Expr.levels, Expr.height]
      split <;> omega

theorem Expr.levelsAll_le_heights (o : Options) :
    (es : List Expr) → (m : Machine) → Expr.levelsAll o es m ≤ Expr.heights es
  | [], _ => Nat.le_refl _
  | e :: es, m => by
      have hfirst := e.levels_le_height o m
      have hrest : Upshot.behind (e.freely o m) (fun _ m => Expr.levelsAll o es m) ≤
          Expr.heights es := behind_le fun _ m => Expr.levelsAll_le_heights o es m
      simp only [Expr.levelsAll, Expr.heights]
      omega

end

theorem unary_ne_tooDeep {op : Token} {v : Value} {cause : RuntimeCause}
    (h : Value.unary op v = .error cause) : cause ≠ .nestingTooDeep := by
  unfold Value.unary at h
  split at h <;> cases h <;> simp

theorem binary_ne_tooDeep {op : Token} {a b : Value} {cause : RuntimeCause}
    (h : Value.binary op a b = .error cause) : cause ≠ .nestingTooDeep := by
  unfold Value.binary Value.plus Value.arithmetic at h
  split at h <;> (try split at h) <;> (try split at h) <;> cases h <;> simp

theorem ofExcept_settled (line : Int) {x : Except RuntimeCause Value} (m : Machine)
    (h : ∀ cause, x = .error cause → cause ≠ .nestingTooDeep) :
    ¬ Upshot.TooDeep (Action.ofExcept line x m) ∧
      (Upshot.machine (Action.ofExcept line x m)).depth = m.depth := by
  cases x with
  | ok v => exact ⟨not_tooDeep_ok v m, rfl⟩
  | error cause => exact ⟨not_tooDeep_fault (h cause rfl), rfl⟩

theorem get_settled (name : Token) (m : Machine) :
    ¬ Upshot.TooDeep (Action.get name m) ∧
      (Upshot.machine (Action.get name m)).depth = m.depth := by
  unfold Action.get
  split
  · exact ⟨not_tooDeep_ok _ m, rfl⟩
  · exact ⟨not_tooDeep_fault (by simp), rfl⟩

theorem uses_freely {o : Options} {e : Expr} {m : Machine}
    (h : ∃ r, Uses (fun limit => evaluate { o with limit } e) m (e.levels o m) r) :
    Uses (fun limit => evaluate { o with limit } e) m (e.levels o m) (e.freely o m) := by
  obtain ⟨r, hr⟩ := h
  exact hr.freely (e.levels_le_height o m)

mutual

/-- Evaluation enters the levels of the expression, and it is the limit that decides whether it
comes to its end. -/
theorem evaluate_uses (o : Options) : (e : Expr) → (m : Machine) →
    Uses (fun limit => evaluate { o with limit } e) m (e.levels o m) (e.freely o m)
  | .absent, m => by
      simp only [Expr.freely, evaluate]
      exact .constant (not_tooDeep_fault (by simp)) rfl
  | .literal v line, m => by
      refine uses_freely ?_
      simp only [evaluate]
      exact ⟨_, .nested line (.constant (p := pure v) (not_tooDeep_ok v _) rfl)⟩
  | .reference name, m => by
      refine uses_freely ?_
      have hget := get_settled name m.deeper
      simp only [evaluate]
      exact ⟨_, .nested name.line (.constant hget.1 hget.2)⟩
  | .assign name e, m => by
      obtain ⟨r, hr⟩ := (evaluate_uses o e m.deeper).bindConstant
        (q := fun v => do Action.assign name.lexeme v; pure v)
        fun v m' _ => ⟨not_tooDeep_ok v _, rfl⟩
      refine uses_freely ?_
      simp only [evaluate]
      exact ⟨_, hr.nested name.line⟩
  | .unary op e, m => by
      obtain ⟨r, hr⟩ := (evaluate_uses o e m.deeper).bindConstant
        (q := fun v => Action.ofExcept op.line (Value.unary op v))
        fun v m' _ => ofExcept_settled op.line m' fun _ => unary_ne_tooDeep
      refine uses_freely ?_
      simp only [evaluate]
      exact ⟨_, hr.nested op.line⟩
  | .binary left op right, m => by
      have hright : ∀ a m', ∃ r, Uses (fun limit => do
          let b ← evaluate { o with limit } right
          Action.ofExcept op.line (Value.binary op a b)) m' (right.levels o m') r :=
        fun a m' => (evaluate_uses o right m').bindConstant
          fun b m'' _ => ofExcept_settled op.line m'' fun _ => binary_ne_tooDeep
      obtain ⟨r, hr⟩ := (evaluate_uses o left m.deeper).bind (fun _ m => right.levels o m)
        fun a m' _ => hright a m'
      refine uses_freely ?_
      simp only [evaluate]
      exact ⟨_, hr.nested op.line⟩
  | .array bracket elems, m => by
      refine uses_freely ?_
      simp only [evaluate, Expr.levels]
      by_cases hon : o.arrayElements = true
      · obtain ⟨r, hr⟩ := evaluateAll_uses o elems m.deeper
        obtain ⟨r', hr'⟩ := hr.bindConstant (q := fun vs => pure (Value.array vs))
          fun vs m' _ => ⟨not_tooDeep_ok _ m', rfl⟩
        simp only [if_pos hon]
        exact ⟨_, hr'.nested bracket.line⟩
      · simp only [if_neg hon]
        exact ⟨_, .nested bracket.line
          (.constant (p := pure (Value.array [])) (not_tooDeep_ok _ _) rfl)⟩

theorem evaluateAll_uses (o : Options) : (es : List Expr) → (m : Machine) →
    ∃ r, Uses (fun limit => evaluateAll { o with limit } es) m (Expr.levelsAll o es m) r
  | [], m => by
      simp only [evaluateAll, Expr.levelsAll]
      exact ⟨_, .constant (p := pure []) (not_tooDeep_ok [] m) rfl⟩
  | e :: es, m => by
      have hrest : ∀ v m', ∃ r, Uses (fun limit => do
          let vs ← evaluateAll { o with limit } es
          pure (v :: vs)) m' (Expr.levelsAll o es m') r := by
        intro v m'
        obtain ⟨r, hr⟩ := evaluateAll_uses o es m'
        exact hr.bindConstant fun vs m'' _ => ⟨not_tooDeep_ok _ m'', rfl⟩
      simp only [evaluateAll, Expr.levelsAll]
      exact (evaluate_uses o e m).bind (fun _ m => Expr.levelsAll o es m) fun v m' _ => hrest v m'

end

/-! ## Statements -/

mutual

theorem Stmt.levels_le_height (o : Options) : (s : Stmt) → (m : Machine) → s.levels o m ≤ s.height
  | .absent, _ => Nat.le_refl _
  | .print _ e, _ => Nat.succ_le_succ (e.levels_le_height o _)
  | .expression e, m => by
      cases e with
      | absent => exact Nat.zero_le _
      | _ => exact Nat.succ_le_succ (Expr.levels_le_height o _ _)
  | .declare _ init, _ => Nat.succ_le_succ (init.levels_le_height o _)
  | .block _ stmts, _ => Nat.succ_le_succ (Stmt.levelsAll_le_heights o stmts _)
  | .branch keyword cond yes no, m => by
      simp only [Stmt.levels, Stmt.height]
      generalize m.entered _ = inside
      have hcond := cond.levels_le_height o inside
      have hnext : Upshot.behind (cond.freely o inside) (fun v m =>
          if v.truthy then yes.levels o m else no.levels o m) ≤ max yes.height no.height := by
        refine behind_le ?_
        intro v m
        have hyes := yes.levels_le_height o m
        have hno := no.levels_le_height o m
        split <;> omega
      omega

theorem Stmt.levelsAll_le_heights (o : Options) :
    (ss : List Stmt) → (m : Machine) → Stmt.levelsAll o ss m ≤ Stmt.heights ss
  | [], _ => Nat.le_refl _
  | s :: ss, m => by
      have hfirst := s.levels_le_height o m
      have hrest : Upshot.behind (s.freely o m) (fun _ m => Stmt.levelsAll o ss m) ≤
          Stmt.heights ss := behind_le fun _ m => Stmt.levelsAll_le_heights o ss m
      simp only [Stmt.levelsAll, Stmt.heights]
      omega

end

/-- A statement is noted for the log at its first level. -/
theorem Uses.noted {f : Nat → Action α} {m : Machine} {levels : Nat} {r : Upshot α} (line : Int)
    (e : LogEvent) (h : Uses f (m.entered e) levels r) :
    Uses (fun limit => Action.nested limit line (do Action.note e; f limit)) m (levels + 1)
      (Upshot.andThen Machine.shallower r) :=
  Uses.nested line ⟨h.enough, h.short, h.settled, h.depth⟩

theorem print_settled (line : Int) (text : Bytes) (m : Machine) :
    ¬ Upshot.TooDeep (Action.print line text m) ∧
      (Upshot.machine (Action.print line text m)).depth = m.depth := by
  unfold Action.print
  split
  · exact ⟨not_tooDeep_ok () _, rfl⟩
  · exact ⟨not_tooDeep_fault (by simp), rfl⟩

theorem Stmt.levels_expression (o : Options) {e : Expr} (he : e ≠ .absent) (m : Machine) :
    (Stmt.expression e).levels o m =
      e.levels o (m.entered ((Stmt.expression e).event e.line)) + 1 := by
  cases e with
  | absent => exact absurd rfl he
  | _ => rfl

theorem Stmt.uses_freely {o : Options} {s : Stmt} {m : Machine} {f : Nat → Action Unit}
    (heq : ∀ limit, execute { o with limit } s = f limit)
    (h : ∃ r, Uses f m (s.levels o m) r) :
    Uses (fun limit => execute { o with limit } s) m (s.levels o m) (s.freely o m) := by
  have hsame : (fun limit => execute { o with limit } s) = f := funext heq
  have hfree : s.freely o m = f (m.depth + s.height) m := congrFun (heq _) m
  obtain ⟨r, hr⟩ := h
  rw [hsame, hfree]
  exact hr.freely (s.levels_le_height o m)

mutual

/-- Execution enters the levels of the statement, and it is the limit that decides whether it
comes to its end. -/
theorem execute_uses {o : Options} (hlive : o.cancelled = false) : (s : Stmt) → (m : Machine) →
    Uses (fun limit => execute { o with limit } s) m (s.levels o m) (s.freely o m)
  | .absent, m => by
      refine Stmt.uses_freely (fun limit => execute_absent (o := { o with limit }) hlive) ?_
      exact ⟨_, .constant (not_tooDeep_fault (by simp)) rfl⟩
  | .print keyword e, m => by
      refine Stmt.uses_freely
        (fun limit => execute_print (o := { o with limit }) hlive keyword e) ?_
      obtain ⟨r, hr⟩ := (evaluate_uses o e _).bindConstant fun v m' _ =>
        print_settled keyword.line v.display m'
      exact ⟨_, hr.noted keyword.line _⟩
  | .expression e, m => by
      by_cases he : e = .absent
      · subst he
        refine Stmt.uses_freely
          (fun limit => execute_expression_absent (o := { o with limit }) hlive) ?_
        refine ⟨_, .constant (p := throw .lineless) ?_ rfl⟩
        rintro ⟨line, m', h⟩
        cases h
      · refine Stmt.uses_freely
          (fun limit => execute_expression (o := { o with limit }) hlive he) ?_
        rw [Stmt.levels_expression o he]
        obtain ⟨r, hr⟩ := (evaluate_uses o e _).bindConstant
          (q := fun _ => pure ()) fun v m' _ => ⟨not_tooDeep_ok () m', rfl⟩
        exact ⟨_, hr.noted e.line _⟩
  | .declare name init, m => by
      by_cases hinit : init = .absent
      · subst hinit
        refine Stmt.uses_freely
          (fun limit => execute_declare_absent (o := { o with limit }) hlive name) ?_
        exact ⟨_, .noted name.line _
          (.constant (p := Action.define name.lexeme .null) (not_tooDeep_ok () _) rfl)⟩
      · refine Stmt.uses_freely
          (fun limit => execute_declare (o := { o with limit }) hlive name hinit) ?_
        obtain ⟨r, hr⟩ := (evaluate_uses o init _).bindConstant
          (q := Action.define name.lexeme) fun v m' _ => ⟨not_tooDeep_ok () _, rfl⟩
        exact ⟨_, hr.noted name.line _⟩
  | .block brace stmts, m => by
      refine Stmt.uses_freely
        (fun limit => execute_block (o := { o with limit }) hlive brace stmts) ?_
      simp only [Stmt.levels, Machine.inBlock]
      by_cases hscope : o.blockScope = true
      · simp only [if_pos hscope]
        obtain ⟨r, hr⟩ := executeAll_uses hlive stmts _
        exact ⟨_, (Uses.inOwnScope hr).noted brace.line _⟩
      · simp only [if_neg hscope]
        obtain ⟨r, hr⟩ := executeAll_uses hlive stmts _
        exact ⟨_, hr.noted brace.line _⟩
  | .branch keyword cond yes no, m => by
      have hchosen : ∀ v m', ∃ r, Uses (fun limit => chosen { o with limit } yes no v) m'
          (if v.truthy then yes.levels o m' else no.levels o m') r := by
        intro v m'
        unfold chosen
        by_cases hv : v.truthy = true
        · simp only [if_pos hv]
          exact ⟨_, execute_uses hlive yes m'⟩
        · simp only [if_neg hv]
          by_cases hno : no.isAbsent = true
          · have habsent : no = .absent := by
              cases no <;> simp [Stmt.isAbsent] at hno
              rfl
            subst habsent
            simp only [if_pos hno]
            exact ⟨_, .constant (p := pure ()) (not_tooDeep_ok () m') rfl⟩
          · simp only [if_neg hno]
            exact ⟨_, execute_uses hlive no m'⟩
      refine Stmt.uses_freely
        (fun limit => execute_branch (o := { o with limit }) hlive keyword cond yes no) ?_
      obtain ⟨r, hr⟩ := (evaluate_uses o cond _).bind
        (fun v m => if v.truthy then yes.levels o m else no.levels o m) fun v m' _ => hchosen v m'
      exact ⟨_, hr.noted keyword.line _⟩

theorem executeAll_uses {o : Options} (hlive : o.cancelled = false) :
    (ss : List Stmt) → (m : Machine) →
    ∃ r, Uses (fun limit => executeAll { o with limit } ss) m (Stmt.levelsAll o ss m) r
  | [], m => by
      simp only [executeAll, Stmt.levelsAll]
      exact ⟨_, .constant (p := pure ()) (not_tooDeep_ok () m) rfl⟩
  | s :: ss, m => by
      simp only [executeAll, Stmt.levelsAll]
      exact (execute_uses hlive s m).bind (fun _ m => Stmt.levelsAll o ss m)
        fun _ m' _ => executeAll_uses hlive ss m'

end

end Scribe
