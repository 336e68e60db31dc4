import Scribe.CommandLine.Invocation
import Scribe.Proofs.Program.Runs
import Scribe.Proofs.Prompt.Script

/-!
# Configuration scripts load back

The script that sets flags declares the value of each visible flag that has a literal and is not
empty. Loading it gives these flags their values, and gives the other flags nothing.
-/

namespace Scribe

namespace Configuration

open Scan Literal Edit

/-! ## What is written -/

def given? (f : FlagState) : Option Value :=
  match written f.value, f.value.accept with
  | .literal _, .ok v => some v
  | _, _ => none

/-- The names that a script declares, with their values. -/
def entries (flags : List FlagState) : List (Bytes × Value) :=
  flags.filterMap fun f => (given? f).map (scriptName f.name, ·)

section Accepted

variable {f : FlagState} {v : Value} (h : f.value.accept = .ok v)
include h

theorem given?_written {lit : Bytes} (hlit : v.literal? = some lit) (hstring : v ≠ .string [])
    (harray : v ≠ .array []) : given? f = some v ∧
      line f.name f.value = Edit.declaration (scriptName f.name) v := by
  have hquotes : lit ≠ utf8 "\"\"" := by
    rintro rfl
    exact hstring (literal?_injective hlit rfl)
  have hbrackets : lit ≠ utf8 "[]" := by
    rintro rfl
    exact harray (literal?_injective hlit rfl)
  have hwritten : written f.value = .literal lit := by
    simp [written, h, hlit, hquotes, hbrackets]
  constructor
  · simp only [given?, hwritten, h]
  · simp only [line, hwritten, Edit.declaration, hlit]

theorem given?_omitted (hnone : v.literal? = none ∨ v = .string [] ∨ v = .array []) :
    given? f = none ∧ line f.name f.value = [] := by
  have hwritten : written f.value = .omitted v := by
    rcases hnone with hnone | rfl | rfl
    · simp only [written, h, hnone]
    · simp only [written, h]
      rfl
    · simp only [written, h]
      rfl
  constructor
  · simp only [given?, hwritten]
  · simp only [line, hwritten]

end Accepted

theorem given?_cases (f : FlagState) :
    (given? f = none ∧ line f.name f.value = []) ∨
      ∃ v lit, f.value.accept = .ok v ∧ v.literal? = some lit ∧ given? f = some v ∧
        line f.name f.value = Edit.declaration (scriptName f.name) v := by
  cases haccept : f.value.accept with
  | error e =>
      left
      have hwritten : written f.value = .unsupported := by simp only [written, haccept]
      constructor
      · simp only [given?, hwritten]
      · simp only [line, hwritten]
  | ok v =>
      cases hlit : v.literal? with
      | none => exact .inl (given?_omitted haccept (.inl hlit))
      | some lit =>
          by_cases hstring : v = .string []
          · exact .inl (given?_omitted haccept (.inr (.inl hstring)))
          · by_cases harray : v = .array []
            · exact .inl (given?_omitted haccept (.inr (.inr harray)))
            · exact .inr ⟨v, lit, rfl, hlit, given?_written haccept hlit hstring harray⟩

/-! ## What the script spells -/

theorem entries_of_none {f : FlagState} (h : given? f = none) (flags : List FlagState) :
    entries (f :: flags) = entries flags := by
  simp [entries, h]

theorem entries_of_some {f : FlagState} {v : Value} (h : given? f = some v)
    (flags : List FlagState) : entries (f :: flags) = (scriptName f.name, v) :: entries flags := by
  simp [entries, h]

theorem spells_lines {flags : List FlagState}
    (hnames : ∀ f ∈ flags, isIdentifier (scriptName f.name) = true) (line : Nat) (rest : Bytes) :
    ∃ ts ss line', DeclaresAll (entries flags) ts ss ∧
      Spells line (flags.flatMap fun f => Configuration.line f.name f.value) rest ts line' := by
  induction flags generalizing line with
  | nil => exact ⟨[], [], line, .nil, fun _ => rfl⟩
  | cons f flags ih =>
      have hothers := ih fun g hg => hnames g (List.mem_cons_of_mem f hg)
      rw [List.flatMap_cons]
      rcases given?_cases f with ⟨hnone, hline⟩ | ⟨v, lit, -, hlit, hsome, hline⟩
      · rw [entries_of_none hnone, hline]
        exact hothers line
      · obtain ⟨us, s, line', hdeclares, hfirst⟩ := spells_entry (hnames f List.mem_cons_self) hlit
          line ((flags.flatMap fun f => Configuration.line f.name f.value) ++ rest)
        obtain ⟨ts, ss, line'', hall, hspells⟩ := hothers line'
        rw [entries_of_some hsome, hline]
        exact ⟨us ++ ts, s :: ss, line'', .cons hdeclares hall, hfirst.append hspells⟩

theorem script_spells {flags : List FlagState}
    (hnames : ∀ f ∈ flags.filter FlagState.isVisible, isIdentifier (scriptName f.name) = true) :
    ∃ ts ss line', DeclaresAll (entries (flags.filter FlagState.isVisible)) ts ss ∧
      Spells 1 (script flags) [] ts line' := by
  let note := utf8 "// wz configuration. Flags given on the command line take precedence."
  have hquiet : isQuiet note = true := rfl
  have hfeed : Bytes.lineFeed ∉ note := by decide
  have hheader : header = note ++ [Bytes.lineFeed] := rfl
  obtain ⟨line, hspells⟩ := spells_line hquiet hfeed 1
    ((flags.filter FlagState.isVisible).flatMap (fun f => Configuration.line f.name f.value) ++ [])
  obtain ⟨ts, ss, line', hall, hlines⟩ := spells_lines hnames line []
  rw [script, hheader]
  exact ⟨ts, ss, line', hall, hspells.append hlines⟩

/-! ## What is loaded -/

theorem mem_entries {flags : List FlagState} {name : Bytes} {v : Value}
    (h : (name, v) ∈ entries flags) :
    ∃ f ∈ flags, f.value.accept = .ok v ∧ scriptName f.name = name := by
  rw [entries, List.mem_filterMap] at h
  obtain ⟨f, hf, hentry⟩ := h
  rw [Option.map_eq_some_iff] at hentry
  obtain ⟨w, hgiven, heq⟩ := hentry
  cases heq
  rcases given?_cases f with ⟨hnone, -⟩ | ⟨u, -, haccept, -, hsome, -⟩
  · rw [hnone] at hgiven
    cases hgiven
  · rw [hsome, Option.some.injEq] at hgiven
    exact ⟨f, hf, hgiven ▸ haccept, rfl⟩

/-- Each flag of a list whose names differ is bound to the value that the script gives to it. -/
theorem get?_entries {flags : List FlagState}
    (hdistinct : (flags.map (scriptName ·.name)).Nodup) {f : FlagState} (hf : f ∈ flags)
    {b : Bindings} (hb : b.get? (scriptName f.name) = none) :
    ((entries flags).foldl (fun b e => b.define e.1 e.2) b).get? (scriptName f.name) =
      given? f := by
  induction flags generalizing b with
  | nil => cases hf
  | cons g flags ih =>
      rw [List.map_cons, List.nodup_cons] at hdistinct
      obtain ⟨hfresh, hothers⟩ := hdistinct
      rcases List.mem_cons.mp hf with rfl | hf
      · have hnot : scriptName f.name ∉ (entries flags).map Prod.fst := by
          intro hmem
          obtain ⟨⟨name, v⟩, hentry, rfl⟩ := List.mem_map.mp hmem
          obtain ⟨g, hg, -, hname⟩ := mem_entries hentry
          exact hfresh (List.mem_map.mpr ⟨g, hg, hname⟩)
        cases hgiven : given? f with
        | none => rw [entries_of_none hgiven, Bindings.get?_foldl_define hnot, hb]
        | some v =>
            rw [entries_of_some hgiven, List.foldl_cons, Bindings.get?_foldl_define hnot,
              Bindings.get?_define, if_pos rfl]
      · have hne : scriptName f.name ≠ scriptName g.name := by
          intro heq
          exact hfresh (List.mem_map.mpr ⟨f, hf, heq⟩)
        cases hgiven : given? g with
        | none =>
            rw [entries_of_none hgiven]
            exact ih hothers hf hb
        | some v =>
            rw [entries_of_some hgiven, List.foldl_cons]
            apply ih hothers hf
            rw [Bindings.get?_define, if_neg hne, hb]

theorem lookup_filterMap {g : Value → Option Document} {entries : List (Bytes × Value)}
    (h : (entries.map Prod.fst).Nodup) (name : Bytes) :
    (entries.filterMap fun (n, v) => (g v).map (n, ·)).lookup name =
      (entries.lookup name).bind g := by
  induction entries with
  | nil => rfl
  | cons e entries ih =>
      obtain ⟨n, v⟩ := e
      rw [List.map_cons, List.nodup_cons] at h
      rw [Bindings.lookup_cons]
      by_cases heq : name = n
      · have hnot : entries.lookup name = none := by
          rw [List.lookup_eq_none_iff]
          intro e he
          rw [bne_iff_ne]
          intro hname
          exact h.1 (List.mem_map.mpr ⟨e, he, hname.symm.trans heq⟩)
        rw [if_pos heq, Option.bind_some]
        cases hgiven : g v with
        | none =>
            rw [List.filterMap_cons_none (by simp [hgiven]), ih h.2, hnot]
            rfl
        | some d =>
            rw [List.filterMap_cons_some (b := (n, d)) (by simp [hgiven]), List.lookup_cons, heq]
            simp
      · rw [if_neg heq]
        cases hgiven : g v with
        | none => rw [List.filterMap_cons_none (by simp [hgiven]), ih h.2]
        | some d =>
            rw [List.filterMap_cons_some (b := (n, d)) (by simp [hgiven]), List.lookup_cons,
              beq_eq_false_iff_ne.mpr heq, ih h.2]

theorem lookup_ofBindings (b : Bindings) (name : Bytes) :
    (ofBindings b).lookup name = (b.get? name).bind flagValue? :=
  lookup_filterMap b.names_nodup name

/-- A name without hyphens is that of the script. -/
theorem scriptName_eq {name : Bytes} (h : 0x2D ∉ name) : scriptName name = name := by
  have hkept : ∀ b ∈ name, (if b = 0x2D then 0x5F else b) = b := by
    intro b hb
    apply if_neg
    rintro rfl
    exact h hb
  exact (List.map_congr_left hkept).trans (List.map_id name)

theorem get?_ofBindings {b : Bindings} (h : ∀ flag : Bytes, 0x2D ∈ flag → b.get? flag = none)
    (flag : Bytes) :
    (ofBindings b).get? flag = (b.get? (scriptName flag)).bind flagValue? := by
  by_cases hhyphen : 0x2D ∈ flag
  · simp only [get?, lookup_ofBindings, h flag hhyphen, Option.bind_none]
  · simp only [get?, lookup_ofBindings, scriptName_eq hhyphen]
    cases (b.get? flag).bind flagValue? <;> rfl

theorem script_run {flags : List FlagState}
    (hnames : ∀ f ∈ flags.filter FlagState.isVisible, isIdentifier (scriptName f.name) = true)
    (hlimit : ∀ f ∈ flags.filter FlagState.isVisible, ∀ v, f.value.accept = .ok v →
      v.nesting + 3 ≤ defaultLimit)
    {outcome : Interpreter.Outcome} (hrun : interpreter.Runs (script flags) outcome) :
    outcome.diagnostics = [] ∧ outcome.interpreter.bindings =
      (entries (flags.filter FlagState.isVisible)).foldl (fun b e => b.define e.1 e.2) .empty := by
  obtain ⟨ts, ss, line, hall, hspells⟩ := script_spells hnames
  have hroom : ∀ e ∈ entries (flags.filter FlagState.isVisible),
      e.2.nesting + 3 ≤ defaultLimit := by
    rintro ⟨name, v⟩ he
    obtain ⟨f, hf, haccept, -⟩ := mem_entries he
    exact hlimit f hf v haccept
  obtain ⟨hstmts, hquiet⟩ := hall.made hspells fun e he => Nat.le_of_succ_le (hroom e he)
  obtain ⟨hdiagnostics, hbindings⟩ := hall.run (i := interpreter) hstmts hquiet rfl rfl
    (fun e he => by simpa [interpreter, Interpreter.ofOptions] using hroom e he) rfl
  obtain ⟨hinterpreter, hsame⟩ := hrun.eq_run
  constructor
  · rw [hsame]
    exact hdiagnostics
  · rw [hinterpreter]
    exact hbindings

/-- The script that sets the visible flags runs without diagnostics and gives each of them its value
back, unless the value is null or empty or has no literal; then it gives nothing. -/
theorem script_restores {flags : List FlagState}
    (hnames : ∀ f ∈ flags, f.isVisible = true → isIdentifier (scriptName f.name) = true)
    (hdistinct : ((flags.filter FlagState.isVisible).map (scriptName ·.name)).Nodup)
    (hvalues : ∀ f ∈ flags, f.isVisible = true →
      ∃ v, f.value.accept = .ok v ∧ v.nesting + 3 ≤ defaultLimit)
    {outcome : Interpreter.Outcome} (hrun : interpreter.Runs (script flags) outcome) :
    outcome.diagnostics = [] ∧
      ∀ f ∈ flags, f.isVisible = true → ∀ v, f.value.accept = .ok v →
        (v ≠ .null → v ≠ .string [] → v ≠ .array [] → v.literal?.isSome = true →
          (ofOutcome outcome).get? f.name = flagValue? v) ∧
        (v = .null ∨ v = .string [] ∨ v = .array [] ∨ v.literal? = none →
          (ofOutcome outcome).get? f.name = none) := by
  have hvisible : ∀ {f}, f ∈ flags.filter FlagState.isVisible →
      f ∈ flags ∧ f.isVisible = true := List.mem_filter.mp
  have hids : ∀ f ∈ flags.filter FlagState.isVisible, isIdentifier (scriptName f.name) = true :=
    fun f hf => hnames f (hvisible hf).1 (hvisible hf).2
  have hlimit : ∀ f ∈ flags.filter FlagState.isVisible, ∀ v, f.value.accept = .ok v →
      v.nesting + 3 ≤ defaultLimit := by
    intro f hf v haccept
    obtain ⟨w, hw, hroom⟩ := hvalues f (hvisible hf).1 (hvisible hf).2
    rw [haccept, Except.ok.injEq] at hw
    exact hw ▸ hroom
  obtain ⟨hdiagnostics, hbindings⟩ := script_run hids hlimit hrun
  refine ⟨hdiagnostics, ?_⟩
  -- No name that is bound holds a hyphen.
  have hhyphen : ∀ flag : Bytes, 0x2D ∈ flag → outcome.interpreter.bindings.get? flag = none := by
    intro flag hflag
    rw [hbindings, Bindings.get?_foldl_define]
    · rfl
    · intro hmem
      obtain ⟨⟨name, v⟩, hentry, rfl⟩ := List.mem_map.mp hmem
      obtain ⟨f, hf, -, rfl⟩ := mem_entries hentry
      exact not_mem_name (hids f hf) (by decide) (by decide) hflag
  intro f hf hshown v haccept
  have hget : (ofOutcome outcome).get? f.name = (given? f).bind flagValue? := by
    have hbound := get?_entries hdistinct (List.mem_filter.mpr ⟨hf, hshown⟩) (b := .empty) rfl
    rw [← hbindings] at hbound
    rw [ofOutcome, hdiagnostics, List.isEmpty_nil, if_pos rfl, get?_ofBindings hhyphen, hbound]
  constructor
  · intro _ hstring harray hsome
    obtain ⟨lit, hlit⟩ := Option.isSome_iff_exists.mp hsome
    rw [hget, (given?_written haccept hlit hstring harray).1]
    rfl
  · rintro (rfl | hstring | harray | hnone)
    · rw [hget, (given?_written haccept rfl nofun nofun).1]
      rfl
    · rw [hget, (given?_omitted haccept (.inr (.inl hstring))).1]
      rfl
    · rw [hget, (given?_omitted haccept (.inr (.inr harray))).1]
      rfl
    · rw [hget, (given?_omitted haccept (.inl hnone)).1]
      rfl

/-- A number in a list in a list, a text with a quote, and flags that are no names of a script. -/
theorem nested_flags_restored :
    let path : FlagState := { name := utf8 "search-path"
                              value := .list [.text (utf8 "//\n"), .list [.real (-0.5), .nothing]] }
    let note : FlagState := { name := utf8 "note", value := .text (utf8 "\"") }
    let flags : List FlagState := [{ name := utf8 "help", value := .boolean false }, path,
      { name := utf8 "let", hidden := true, value := .unsupported (utf8 "func()") }, note]
    let outcome := interpreter.run (script flags)
    (∀ f ∈ flags, f.isVisible = true → isIdentifier (scriptName f.name) = true) ∧
      ((flags.filter FlagState.isVisible).map (scriptName ·.name)).Nodup ∧
      (∀ f ∈ flags, f.isVisible = true →
        ∃ v, f.value.accept = .ok v ∧ v.nesting + 3 ≤ defaultLimit) ∧
      outcome.diagnostics = [] ∧
      (ofOutcome outcome).get? (utf8 "search-path") =
        some (.list [.text (utf8 "//\n"), .list [.text (utf8 "-0.5")]]) ∧
      (ofOutcome outcome).get? (utf8 "note") = none := by
  intro path note flags outcome
  have hnames : ∀ f ∈ flags, f.isVisible = true → isIdentifier (scriptName f.name) = true := by
    simp only [flags, List.forall_mem_cons, List.not_mem_nil, IsEmpty.forall_iff, implies_true,
      and_true]
    exact ⟨fun _ => by cbv, fun _ => by cbv, fun hhidden => absurd hhidden (by decide),
      fun _ => by cbv⟩
  have hdistinct : ((flags.filter FlagState.isVisible).map (scriptName ·.name)).Nodup := by
    decide
  let nested : Value := .array [.string (utf8 "//\n"), .array [.number (-0.5), .null]]
  have hvalues : ∀ f ∈ flags, f.isVisible = true →
      ∃ v, f.value.accept = .ok v ∧ v.nesting + 3 ≤ defaultLimit := by
    simp only [flags, List.forall_mem_cons, List.not_mem_nil, IsEmpty.forall_iff, implies_true,
      and_true]
    exact ⟨fun _ => ⟨.boolean false, rfl, by decide⟩, fun _ => ⟨nested, rfl, by decide⟩,
      fun hhidden => absurd hhidden (by decide),
      fun _ => ⟨.string (utf8 "\""), rfl, by decide⟩⟩
  obtain ⟨hdiagnostics, hgiven⟩ := script_restores hnames hdistinct hvalues .uncached
  have hpath := (hgiven path (by simp [flags]) (by decide) nested rfl).1
    (by simp [nested]) (by simp [nested]) (by simp [nested]) (by decide)
  have hnote := (hgiven note (by simp [flags]) (by decide) (.string (utf8 "\"")) rfl).2
    (.inr (.inr (.inr rfl)))
  have htext : Layout.flag.number (-0.5) = utf8 "-0.5" := by decide
  refine ⟨hnames, hdistinct, hvalues, hdiagnostics, hpath.trans ?_, hnote⟩
  simp only [nested, flagValue?, flagValues, htext]

/-! ## The flags of the program -/

theorem accept_texts (texts : List Bytes) :
    (Host.list (texts.map .text)).accept = .ok (.array (texts.map .string)) := by
  have hlist : Value.ofHostList (texts.map .text) = .ok (texts.map .string) := by
    induction texts with
    | nil => rfl
    | cons text texts ih => simp only [List.map_cons, Value.ofHostList, Value.ofHost, ih]
  simp only [Host.accept, Value.ofHost, hlist]

theorem nesting_texts (texts : List Bytes) : (Value.array (texts.map .string)).nesting = 1 := by
  have hlist : Value.nestings (texts.map .string) = 0 := by
    induction texts with
    | nil => rfl
    | cons text texts ih => simp only [List.map_cons, Value.nestings, Value.nesting, ih, max_self]
  rw [Value.nesting, hlist]

/-- Whatever is asked for, the script of the program's own flags runs without diagnostics. -/
theorem flags_run (i : Invocation) {outcome : Interpreter.Outcome}
    (hrun : interpreter.Runs (script i.flags) outcome) : outcome.diagnostics = [] := by
  have hnames : ∀ f ∈ i.flags, isIdentifier (scriptName f.name) = true := by
    simp only [Invocation.flags, List.forall_mem_cons, List.not_mem_nil, IsEmpty.forall_iff,
      implies_true, and_true]
    cbv
  have hlimit : ∀ f ∈ i.flags, ∀ v, f.value.accept = .ok v → v.nesting + 3 ≤ defaultLimit := by
    have hlow : 1 + 3 ≤ defaultLimit := by decide
    have hflat : ∀ {x : Host} {w v : Value}, x.accept = .ok w → w.nesting ≤ 1 →
        x.accept = .ok v → v.nesting + 3 ≤ defaultLimit := by
      intro x w v hx hw hv
      rw [hx, Except.ok.injEq] at hv
      rw [← hv]
      omega
    simp only [Invocation.flags, List.forall_mem_cons, List.not_mem_nil, IsEmpty.forall_iff,
      implies_true, and_true]
    have htext : ∀ text v, (Host.text text).accept = .ok v → v.nesting + 3 ≤ defaultLimit :=
      fun text v => hflat (w := .string text) rfl (Nat.zero_le 1)
    have hswitch : ∀ b v, (Host.boolean b).accept = .ok v → v.nesting + 3 ≤ defaultLimit :=
      fun b v => hflat (w := .boolean b) rfl (Nat.zero_le 1)
    exact ⟨hswitch _, htext _, htext _, htext _, hswitch _, hswitch _,
      fun v => hflat (accept_texts i.path) (Nat.le_of_eq (nesting_texts i.path)), hswitch _⟩
  exact (script_run (fun f hf => hnames f (List.mem_of_mem_filter hf))
    (fun f hf => hlimit f (List.mem_of_mem_filter hf)) hrun).1

end Configuration

end Scribe
