import Scribe.Proofs.Machine.Reach
import Scribe.Proofs.Scope

/-!
# What a run leaves alone

An assignment may change its name in any scope, a declaration in the current one only. Nothing else
is changed and nothing is unbound, and depth and scopes are given back, however a run ends. A block
with a scope of its own takes its declarations with it.
-/

namespace Scribe

/-! ## Targets -/

mutual

def Stmt.assigned : Stmt → List Bytes
  | .absent => []
  | .print _ e | .expression e | .declare _ e => e.assigned
  | .block _ stmts => Stmt.assignedAll stmts
  | .branch _ cond yes no => cond.assigned ++ (yes.assigned ++ no.assigned)

def Stmt.assignedAll : List Stmt → List Bytes
  | [] => []
  | s :: ss => s.assigned ++ Stmt.assignedAll ss

end

mutual

/-- The names that a statement declares in the scope in which it is executed. -/
def Stmt.declared (o : Options) : Stmt → List Bytes
  | .absent | .print _ _ | .expression _ => []
  | .declare name _ => [name.lexeme]
  | .block _ stmts => if o.blockScope then [] else Stmt.declaredAll o stmts
  | .branch _ _ yes no => yes.declared o ++ no.declared o

def Stmt.declaredAll (o : Options) : List Stmt → List Bytes
  | [] => []
  | s :: ss => s.declared o ++ Stmt.declaredAll o ss

end

/-! ## Scopes -/

/-- Bound names stay bound, and only the given ones may get another value. -/
def Bindings.Kept (names : List Bytes) (b b' : Bindings) : Prop :=
  ∀ name, (b.binds name = true → b'.binds name = true) ∧
    (name ∉ names → b'.get? name = b.get? name)

namespace Bindings.Kept

variable {names more : List Bytes} {b b' b'' : Bindings}

theorem refl (names : List Bytes) (b : Bindings) : b.Kept names b := fun _ => ⟨id, fun _ => rfl⟩

theorem trans (h : b.Kept names b') (h' : b'.Kept names b'') : b.Kept names b'' := fun name =>
  ⟨(h' name).1 ∘ (h name).1, fun hn => ((h' name).2 hn).trans ((h name).2 hn)⟩

theorem mono (h : b.Kept names b') (hsub : names ⊆ more) : b.Kept more b' := fun name =>
  ⟨(h name).1, fun hn => (h name).2 fun hmem => hn (hsub hmem)⟩

theorem define (b : Bindings) (name : Bytes) (v : Value) : b.Kept [name] (b.define name v) := by
  intro other
  rw [binds, binds, get?_define]
  by_cases heq : other = name
  · simp [heq]
  · simp [heq]

end Bindings.Kept

/-- What may become of a chain of scopes: assigned names may change in each of them, declared ones
in the first. -/
inductive ChainKept (assigned declared : List Bytes) : List Bindings → List Bindings → Prop
  | intro {b b' : Bindings} {outer outer' : List Bindings}
      (current : b.Kept (assigned ++ declared) b')
      (around : List.Forall₂ (Bindings.Kept assigned) outer outer') :
      ChainKept assigned declared (b :: outer) (b' :: outer')

namespace ChainKept

variable {assigned declared assigned' declared' : List Bytes} {c c' c'' : List Bindings}

theorem around_trans {c c' c'' : List Bindings} (h : List.Forall₂ (Bindings.Kept assigned) c c')
    (h' : List.Forall₂ (Bindings.Kept assigned) c' c'') :
    List.Forall₂ (Bindings.Kept assigned) c c'' := by
  induction h generalizing c'' with
  | nil => exact h'
  | cons hb _ ih =>
      cases h' with
      | cons hb' h' => exact .cons (hb.trans hb') (ih h')

theorem trans (h : ChainKept assigned declared c c') (h' : ChainKept assigned declared c' c'') :
    ChainKept assigned declared c c'' := by
  cases h with
  | intro current around =>
      cases h' with
      | intro current' around' => exact ⟨current.trans current', around_trans around around'⟩

theorem mono (h : ChainKept assigned declared c c') (ha : assigned ⊆ assigned')
    (hd : declared ⊆ declared') : ChainKept assigned' declared' c c' := by
  cases h with
  | intro current around =>
      have hboth : assigned ++ declared ⊆ assigned' ++ declared' := by
        rw [List.append_subset]
        exact ⟨List.subset_append_of_subset_left _ ha, List.subset_append_of_subset_right _ hd⟩
      exact ⟨current.mono hboth, around.imp fun _ _ h => h.mono ha⟩

/-- Assigned names alone may change wherever they are. -/
theorem of_around (hne : c ≠ []) (h : List.Forall₂ (Bindings.Kept assigned) c c') :
    ChainKept assigned declared c c' := by
  cases h with
  | nil => exact absurd rfl hne
  | cons hb h => exact ⟨hb.mono (List.subset_append_left _ _), h⟩

theorem refl (hne : c ≠ []) : ChainKept assigned declared c c :=
  of_around hne (List.forall₂_same.mpr fun b _ => .refl assigned b)

theorem tail {b : Bindings} (h : ChainKept assigned declared (b :: c) c') :
    List.Forall₂ (Bindings.Kept assigned) c c'.tail := by
  cases h with
  | intro _ around => exact around

theorem length_eq (h : ChainKept assigned declared c c') : c.length = c'.length := by
  cases h with
  | intro _ around => simp [around.length_eq]

end ChainKept

namespace Scopes

variable (s : Scopes) (name : Bytes) (v : Value)

theorem define_kept : ChainKept [] [name] s.chain (s.define name v).chain := by
  obtain ⟨inner, top⟩ := s
  have hsame : ∀ c, List.Forall₂ (Bindings.Kept []) c c := fun c =>
    List.forall₂_same.mpr fun b _ => .refl [] b
  cases inner with
  | nil => exact ⟨.define top name v, .nil⟩
  | cons b outer => exact ⟨.define b name v, hsame _⟩

theorem assignIn_kept {name : Bytes} {v : Value} {inner inner' : List Bindings}
    (h : assignIn name v inner = some inner') :
    List.Forall₂ (Bindings.Kept [name]) inner inner' := by
  induction inner generalizing inner' with
  | nil => cases h
  | cons b outer ih =>
      rw [assignIn] at h
      split at h
      · cases h
        exact .cons (.define b name v) (List.forall₂_same.mpr fun b _ => .refl _ b)
      · obtain ⟨outer', houter, rfl⟩ := Option.map_eq_some_iff.mp h
        exact .cons (.refl _ b) (ih houter)

theorem assign_kept : ChainKept [name] [] s.chain (s.assign name v).chain := by
  refine .of_around s.chain_ne_nil ?_
  unfold assign
  split
  · next inner' hfound =>
      exact List.rel_append (assignIn_kept hfound) (.cons (.refl _ s.top) .nil)
  · refine List.rel_append (List.forall₂_same.mpr fun b _ => .refl _ b) ?_
    exact .cons (.define s.top name v) .nil

end Scopes

/-! ## Runs -/

/-- What a run may do to a machine that assigns and declares the given names. -/
structure Machine.Framed (assigned declared : List Bytes) (m m' : Machine) : Prop where
  depth : m'.depth = m.depth
  scopes : m'.scopes.inner.length = m.scopes.inner.length
  chain : ChainKept assigned declared m.scopes.chain m'.scopes.chain

theorem Machine.Framed.of_chain {assigned declared : List Bytes} {m m' : Machine}
    (depth : m'.depth = m.depth)
    (chain : ChainKept assigned declared m.scopes.chain m'.scopes.chain) :
    m.Framed assigned declared m' := by
  refine ⟨depth, ?_, chain⟩
  simpa [Scopes.chain] using chain.length_eq.symm

/-- A run that leaves alone what neither list names. -/
def Action.Frames (assigned declared : List Bytes) (p : Action α) : Prop :=
  ∀ m : Machine, m.Framed assigned declared (Upshot.machine (p m))

namespace Action.Frames

variable {assigned declared assigned' declared' : List Bytes} {p : Action α}

theorem of_same (h : ∀ m, (Upshot.machine (p m)).depth = m.depth ∧
    (Upshot.machine (p m)).scopes = m.scopes) : Frames assigned declared p := by
  intro m
  refine .of_chain (h m).1 ?_
  rw [(h m).2]
  exact .refl m.scopes.chain_ne_nil

theorem pure (a : α) : Frames assigned declared (pure a : Action α) := of_same fun _ => ⟨rfl, rfl⟩

theorem fault (line : Int) (cause : RuntimeCause) :
    Frames assigned declared (Action.fault line cause : Action α) := of_same fun _ => ⟨rfl, rfl⟩

theorem mono (h : Frames assigned declared p) (ha : assigned ⊆ assigned')
    (hd : declared ⊆ declared') : Frames assigned' declared' p := fun m =>
  .of_chain (h m).depth ((h m).chain.mono ha hd)

theorem bind {f : α → Action β} (hp : Frames assigned declared p)
    (hf : ∀ a, Frames assigned declared (f a)) : Frames assigned declared (p >>= f) := by
  intro m
  have hfirst := hp m
  cases hrun : p m with
  | error stop m' =>
      simp only [hrun, Upshot.machine] at hfirst
      simp only [Bind.bind, EStateM.bind, hrun]
      exact hfirst
  | ok a m' =>
      simp only [hrun, Upshot.machine] at hfirst
      rw [then_of_ok hrun]
      have hsecond := hf a m'
      exact .of_chain (hsecond.depth.trans hfirst.depth) (hfirst.chain.trans hsecond.chain)

theorem nested (limit : Nat) (line : Int) (h : Frames assigned declared p) :
    Frames assigned declared (Action.nested limit line p) := by
  intro m
  by_cases hroom : m.depth < limit
  · rw [nested_eq line p hroom, machine_andThen]
    have hpart := h m.deeper
    refine .of_chain ?_ hpart.chain
    have hdepth := hpart.depth
    simp only [Machine.deeper, Machine.shallower] at hdepth ⊢
    omega
  · simp only [Action.nested, if_neg hroom]
    exact fault line _ m

theorem note (e : LogEvent) : Frames assigned declared (Action.note e) :=
  of_same fun _ => ⟨rfl, rfl⟩

theorem get (name : Token) : Frames assigned declared (Action.get name) := by
  refine of_same fun m => ?_
  unfold Action.get
  split <;> exact ⟨rfl, rfl⟩

theorem print (line : Int) (text : Bytes) : Frames assigned declared (Action.print line text) := by
  refine of_same fun m => ?_
  unfold Action.print
  split <;> exact ⟨rfl, rfl⟩

theorem define (name : Bytes) (v : Value) : Frames [] [name] (Action.define name v) := fun m =>
  .of_chain rfl (m.scopes.define_kept name v)

theorem assign (name : Bytes) (v : Value) : Frames [name] [] (Action.assign name v) := fun m =>
  .of_chain rfl (m.scopes.assign_kept name v)

/-- A scope of its own is left together with what was declared in it. -/
theorem inOwnScope (h : Frames assigned declared p) :
    Frames assigned [] (Action.inOwnScope p) := by
  intro m
  rw [inOwnScope_eq, machine_andThen]
  generalize hstart : ({ m with scopes := m.scopes.enclose } : Machine) = start
  have hpart := h start
  refine .of_chain (by rw [Machine.leave, hpart.depth, ← hstart]) ?_
  have hchain := hpart.chain
  rw [← hstart, Scopes.chain_enclose, hstart] at hchain
  have hlength := hchain.length_eq
  have hpos := List.length_pos_iff.mpr m.scopes.chain_ne_nil
  rw [List.length_cons] at hlength
  rw [Machine.leave, Scopes.chain_leave (by omega)]
  exact .of_around m.scopes.chain_ne_nil hchain.tail

end Action.Frames

open Scribe.Action (Frames)

theorem Action.Frames.compositional (names : List Bytes) :
    Action.Compositional (· ∈ names) fun f => ∀ limit, Frames names [] (f limit) where
  pure a _ := .pure a
  fault line cause _ := .fault line cause
  get name _ := .get name
  assign v hname _ := (Frames.assign _ v).mono (by simpa using hname) (by simp)
  bind hf hg limit := (hf limit).bind fun a => hg a limit
  nested line _ hf limit := (hf limit).nested limit line

theorem evaluate_frames (o : Options) (e : Expr) : Frames e.assigned [] (evaluate o e) :=
  (Frames.compositional e.assigned).evaluate o e (fun _ h => h) o.limit

mutual

theorem execute_frames {o : Options} (hlive : o.cancelled = false) :
    (s : Stmt) → Frames s.assigned (s.declared o) (execute o s)
  | .absent => by
      rw [execute_absent hlive]
      exact .fault 0 _
  | .print keyword e => by
      rw [execute_print hlive, Stmt.assigned]
      refine .nested _ _ ((Frames.note _).bind fun _ => ?_)
      exact ((evaluate_frames o e).mono (by simp) (by simp)).bind fun v => .print _ _
  | .expression e => by
      by_cases he : e = .absent
      · rw [he, execute_expression_absent hlive]
        exact .of_same fun _ => ⟨rfl, rfl⟩
      · rw [execute_expression hlive he, Stmt.assigned]
        refine .nested _ _ ((Frames.note _).bind fun _ => ?_)
        exact ((evaluate_frames o e).mono (by simp) (by simp)).bind fun v => .pure ()
  | .declare name init => by
      rw [Stmt.assigned, Stmt.declared]
      by_cases hinit : init = .absent
      · rw [hinit, execute_declare_absent hlive]
        refine .nested _ _ ((Frames.note _).bind fun _ => ?_)
        exact (Frames.define name.lexeme .null).mono (by simp) (by simp)
      · rw [execute_declare hlive name hinit]
        refine .nested _ _ ((Frames.note _).bind fun _ => ?_)
        refine ((evaluate_frames o init).mono (by simp) (by simp)).bind fun v => ?_
        exact (Frames.define name.lexeme v).mono (by simp) (by simp)
  | .block brace stmts => by
      rw [execute_block hlive, Stmt.assigned, Stmt.declared]
      refine .nested _ _ ((Frames.note _).bind fun _ => ?_)
      split
      · exact .inOwnScope (executeAll_frames hlive stmts)
      · exact executeAll_frames hlive stmts
  | .branch keyword cond yes no => by
      rw [execute_branch hlive, Stmt.assigned, Stmt.declared]
      refine .nested _ _ ((Frames.note _).bind fun _ => ?_)
      refine ((evaluate_frames o cond).mono (by simp) (by simp)).bind fun v => ?_
      unfold chosen
      split
      · exact (execute_frames hlive yes).mono (by simp) (by simp)
      · split
        · exact .pure ()
        · exact (execute_frames hlive no).mono (by simp) (by simp)

theorem executeAll_frames {o : Options} (hlive : o.cancelled = false) :
    (ss : List Stmt) → Frames (Stmt.assignedAll ss) (Stmt.declaredAll o ss) (executeAll o ss)
  | [] => by
      rw [executeAll]
      exact .pure ()
  | s :: ss => by
      rw [executeAll, Stmt.assignedAll, Stmt.declaredAll]
      refine ((execute_frames hlive s).mono (by simp) (by simp)).bind fun _ => ?_
      exact (executeAll_frames hlive ss).mono (by simp) (by simp)

end

/-! ## Whole trees -/

mutual

/-- No position that an expression requires is empty. -/
def Expr.isWhole : Expr → Bool
  | .absent => false
  | .literal _ _ | .reference _ => true
  | .assign _ e | .unary _ e => e.isWhole
  | .binary left _ right => left.isWhole && right.isWhole
  | .array _ elems => Expr.areWhole elems

def Expr.areWhole : List Expr → Bool
  | [] => true
  | e :: es => e.isWhole && Expr.areWhole es

end

mutual

def Stmt.isWhole : Stmt → Bool
  | .absent => false
  | .print _ e | .expression e => e.isWhole
  | .declare _ init => init.isAbsent || init.isWhole
  | .block _ stmts => Stmt.areWhole stmts
  | .branch _ cond yes no => cond.isWhole && yes.isWhole && (no.isAbsent || no.isWhole)

def Stmt.areWhole : List Stmt → Bool
  | [] => true
  | s :: ss => s.isWhole && Stmt.areWhole ss

end

def Node.isWhole : Node → Bool
  | .expr e => e.isWhole
  | .stmt s => s.isWhole

theorem Expr.areWhole_member (before : List Expr) (e : Expr) (after : List Expr)
    (h : Expr.areWhole (before ++ e :: after) = true) : e.isWhole = true := by
  induction before with
  | nil => exact (Bool.and_eq_true_iff.mp h).1
  | cons first rest ih => exact ih (Bool.and_eq_true_iff.mp h).2

theorem Stmt.areWhole_member (before : List Stmt) (s : Stmt) (after : List Stmt)
    (h : Stmt.areWhole (before ++ s :: after) = true) : s.isWhole = true := by
  induction before with
  | nil => exact (Bool.and_eq_true_iff.mp h).1
  | cons first rest ih => exact ih (Bool.and_eq_true_iff.mp h).2

theorem Expr.isAbsent_eq_false {e : Expr} (h : e ≠ .absent) : e.isAbsent = false := by
  cases e with
  | absent => exact absurd rfl h
  | _ => rfl

theorem Enters.isWhole {o : Options} {a b : Node × Machine} (h : Enters o a b)
    (ha : a.1.isWhole = true) : b.1.isWhole = true := by
  cases h with
  | assigned | operand | printed | evaluated => exact ha
  | left => exact (Bool.and_eq_true_iff.mp ha).1
  | right => exact (Bool.and_eq_true_iff.mp ha).2
  | element => exact Expr.areWhole_member _ _ _ ha
  | initial _ he => simpa [Node.isWhole, Stmt.isWhole, Expr.isAbsent_eq_false he] using ha
  | item => exact Stmt.areWhole_member _ _ _ ha
  | condition => exact (Bool.and_eq_true_iff.mp (Bool.and_eq_true_iff.mp ha).1).1
  | yes => exact (Bool.and_eq_true_iff.mp (Bool.and_eq_true_iff.mp ha).1).2
  | no _ _ _ hno =>
      have hlast := (Bool.and_eq_true_iff.mp ha).2
      simpa [Node.isWhole, Stmt.isAbsent_eq_false hno] using hlast

theorem Reaches.isWhole {o : Options} {a b : Node × Machine} (h : Reaches o a b)
    (ha : a.1.isWhole = true) : b.1.isWhole = true := by
  induction h with
  | refl => exact ha
  | tail _ hstep ih => exact hstep.isWhole ih

/-- A whole statement that has not been called off succeeds or reports a fault. -/
theorem execute_settles {o : Options} (hlive : o.cancelled = false) {s : Stmt}
    (hs : s.isWhole = true) (m : Machine) : Upshot.Settled (execute o s m) := by
  rcases execute_settlesOr hlive s m with hsettled | ⟨m', hreached⟩
  · exact hsettled
  · exact absurd (hreached.isWhole hs) Bool.false_ne_true

/-! ## Runs give back what they found -/

theorem execute_framed (o : Options) (s : Stmt) (m : Machine) :
    m.Framed s.assigned (s.declared o) (Upshot.machine (execute o s m)) := by
  by_cases hlive : o.cancelled = true
  · rw [execute_cancelled hlive]
    exact .of_chain rfl (.refl m.scopes.chain_ne_nil)
  · exact execute_frames (by simpa using hlive) s m

theorem Scopes.get?_chain (s : Scopes) (name : Bytes) :
    s.get? name = s.chain.findSome? (·.get? name) := by
  rw [get?, chain, List.findSome?_append]
  cases s.inner.findSome? (·.get? name) <;> simp

/-- A name that no scope may change is looked up as before. -/
theorem Machine.Framed.get? {assigned : List Bytes} {m m' : Machine}
    (h : m.Framed assigned [] m') {name : Bytes} (hname : name ∉ assigned) :
    m'.scopes.get? name = m.scopes.get? name := by
  rw [Scopes.get?_chain, Scopes.get?_chain]
  have hchain := h.chain
  generalize m.scopes.chain = c, m'.scopes.chain = c' at hchain
  cases hchain with
  | intro current around =>
      have hfirst := (current name).2 (by simpa using hname)
      rw [List.findSome?_cons, List.findSome?_cons, hfirst]
      congr 1
      induction around with
      | nil => rfl
      | cons hb _ ih => rw [List.findSome?_cons, List.findSome?_cons, (hb name).2 hname, ih]

/-- However a run ends, depth and scopes are those it began with, every bound name is still bound,
and only the names it assigns to have other values, and in the current scope those it declares
there. A block with a scope of its own changes no name that it only declares. Whole trees succeed
or report a fault, or have been called off. -/
theorem run_framed (o : Options) (m : Machine) :
    (∀ e : Expr, Upshot.Settled (evaluate o e m) ∧
      m.Framed e.assigned [] (Upshot.machine (evaluate o e m))) ∧
    (∀ s : Stmt, (s.isWhole = true → o.cancelled = true ∨ Upshot.Settled (execute o s m)) ∧
      m.Framed s.assigned (s.declared o) (Upshot.machine (execute o s m))) ∧
    (o.blockScope = true → ∀ brace stmts, ∀ name ∉ Stmt.assignedAll stmts,
      (Upshot.machine (execute o (.block brace stmts) m)).scopes.get? name =
        m.scopes.get? name) := by
  refine ⟨fun e => ⟨evaluate_settles o e m, evaluate_frames o e m⟩, fun s => ⟨fun hs => ?_, ?_⟩,
    fun hscope brace stmts name hname => ?_⟩
  · by_cases hlive : o.cancelled = true
    · exact .inl hlive
    · exact .inr (execute_settles (by simpa using hlive) hs m)
  · exact execute_framed o s m
  · have hblock := execute_framed o (.block brace stmts) m
    rw [Stmt.assigned, Stmt.declared, if_pos hscope] at hblock
    exact hblock.get? hname

/-- A block declares a name anew and then cannot print it. -/
theorem unprinted_block_framed :
    let x : Token := ⟨.identifier, utf8 "x", .null, 1⟩
    let s : Stmt := .block x [.declare x (.literal (.boolean true) 1), .print x (.reference x)]
    let o : Options := { blockScope := true }
    let m : Machine := ⟨.ofTop (.ofList [(x.lexeme, .null)]), .limited 0 (utf8 "full"), 0, []⟩
    let m' := Upshot.machine (execute o s m)
    s.isWhole = true ∧ x.lexeme ∉ s.assigned ∧
      Node.stop? o (.stmt s, m) =
        some (.fault (Diagnostic.runtime 1 (.outputFailed (utf8 "full")))) ∧
      Upshot.Settled (execute o s m) ∧ m.Framed s.assigned (s.declared o) m' ∧
      m'.scopes.get? x.lexeme = some .null := by
  intro x s o m m'
  have hwhole : s.isWhole = true := rfl
  have hname : x.lexeme ∉ s.assigned := List.not_mem_nil
  have hbefore : m.scopes.get? x.lexeme = some .null := by cbv
  have hstop : Node.stop? o (.stmt s, m) =
      some (.fault (Diagnostic.runtime 1 (.outputFailed (utf8 "full")))) := by cbv
  obtain ⟨-, hstmt, hblock⟩ := run_framed o m
  refine ⟨hwhole, hname, hstop, ((hstmt s).1 hwhole).resolve_left Bool.false_ne_true,
    (hstmt s).2, ?_⟩
  exact (hblock rfl x _ x.lexeme hname).trans hbefore

end Scribe
