import Mathlib
import Scribe.Files.Source
import Scribe.Files.Tree

/-!
# Scripts in the order of their mention

A name stands for the file at that path, or else, unless it starts at the root, for the file of that
name in the first directory of the include path that has one. Reading names in order gives one
script for each file, at the place and under the path of its first mention, and standard input
behind all of them. Nothing is left by a single name that stands for no file, by a path that cannot
be resolved, and by a text that is to be read and cannot be.
-/

namespace Scribe

namespace Source

variable {κ : Type} {fs : FileSystem κ} {dirs : List Bytes}

/-- The path at which the script of a name is found. -/
inductive Located (fs : FileSystem κ) (dirs : List Bytes) (name : Bytes) : Bytes → Prop where
  | given (hfile : fs.look name = some .file) : Located fs dirs name name
  | included {before after : List Bytes} {dir : Bytes}
      (hname : fs.look name ≠ some .file) (hrelative : Path.isAbsolute name = false)
      (hdirs : dirs = before ++ dir :: after)
      (hbefore : ∀ d ∈ before, fs.look (Path.join d name) ≠ some .file)
      (hfile : fs.look (Path.join dir name) = some .file) :
      Located fs dirs name (Path.join dir name)

theorem isFile_eq_true_iff {path : Bytes} : fs.isFile path = true ↔ fs.look path = some .file :=
  decide_eq_true_iff

theorem isFile_eq_false_iff {path : Bytes} : fs.isFile path = false ↔ fs.look path ≠ some .file :=
  decide_eq_false_iff_not

theorem locate?_eq_some_iff {name path : Bytes} :
    locate? fs dirs name = some path ↔ Located fs dirs name path := by
  rw [locate?, candidates]
  cases hgiven : fs.isFile name with
  | true =>
      rw [List.find?_cons_of_pos hgiven]
      constructor
      · rintro ⟨⟩
        exact .given (isFile_eq_true_iff.mp hgiven)
      · intro h
        cases h with
        | given => rfl
        | included hname => exact absurd (isFile_eq_true_iff.mp hgiven) hname
  | false =>
      have hname := isFile_eq_false_iff.mp hgiven
      rw [List.find?_cons_of_neg (by simp [hgiven])]
      cases hrelative : Path.isAbsolute name with
      | true =>
          refine iff_of_false (by simp) fun h => ?_
          cases h with
          | given hfile => exact hname hfile
          | included _ hother => exact absurd (hrelative.symm.trans hother) (by decide)
      | false =>
          simp only [Bool.false_eq_true, if_false, List.find?_map, Option.map_eq_some_iff,
            List.find?_eq_some_iff_append, Function.comp_apply, Bool.not_eq_true',
            isFile_eq_true_iff, isFile_eq_false_iff]
          constructor
          · rintro ⟨dir, ⟨hfile, before, after, hdirs, hbefore⟩, rfl⟩
            exact .included hname hrelative hdirs hbefore hfile
          · intro h
            cases h with
            | given hfile => exact absurd hfile hname
            | included _ _ hdirs hbefore hfile => exact ⟨_, ⟨hfile, _, _, hdirs, hbefore⟩, rfl⟩

theorem Located.unique {name path path' : Bytes} (h : Located fs dirs name path)
    (h' : Located fs dirs name path') : path = path' :=
  Option.some_inj.mp ((locate?_eq_some_iff.mpr h).symm.trans (locate?_eq_some_iff.mpr h'))

/-- A name stands for the file with this key, which is found at this path. -/
structure Mentions (fs : FileSystem κ) (dirs : List Bytes) (name : Bytes) (m : Bytes × κ) :
    Prop where
  located : Located fs dirs name m.1
  resolved : fs.resolve m.1 = .ok m.2

theorem Mentions.unique {name : Bytes} {m m' : Bytes × κ} (h : Mentions fs dirs name m)
    (h' : Mentions fs dirs name m') : m = m' := by
  have hpath := h.located.unique h'.located
  have hresolved := h.resolved
  rw [hpath, h'.resolved] at hresolved
  exact Prod.ext hpath (Except.ok.inj hresolved).symm

/-- Behind the names `before`, a name leaves nothing. -/
inductive Fails (fs : FileSystem κ) (dirs before : List Bytes) (name : Bytes) : Prop where
  | missing (hnone : ¬∃ path, Located fs dirs name path)
  /-- Every mention of a file is resolved, which is where its reading starts. -/
  | unresolved {path : Bytes} {cause : Failure} (hlocated : Located fs dirs name path)
      (hcause : fs.resolve path = .error cause)
  /-- Only the first mention of a file is read. -/
  | unreadable {m : Bytes × κ} {cause : Failure} (hmentions : Mentions fs dirs name m)
      (hfirst : ∀ earlier ∈ before, ∀ n, Mentions fs dirs earlier n → n.2 ≠ m.2)
      (hcause : fs.read m.1 = .error cause)

section Partners

variable {α β : Type} {R : α → β → Prop} {bs : List β} {a : α}

theorem split_partner {before after : List α} (h : List.Forall₂ R (before ++ a :: after) bs) :
    ∃ front b back, bs = front ++ b :: back ∧ List.Forall₂ R before front ∧ R a b := by
  induction before generalizing bs with
  | nil =>
      obtain ⟨b, back, hab, -, rfl⟩ := List.forall₂_cons_left_iff.mp h
      exact ⟨[], b, back, rfl, .nil, hab⟩
  | cons a' before ih =>
      obtain ⟨b', bs', hfirst, hothers, rfl⟩ := List.forall₂_cons_left_iff.mp h
      obtain ⟨front, b, back, rfl, hfront, hab⟩ := ih hothers
      exact ⟨b' :: front, b, back, rfl, .cons hfirst hfront, hab⟩

theorem exists_partner {as : List α} (h : List.Forall₂ R as bs) (ha : a ∈ as) :
    ∃ b ∈ bs, R a b := by
  obtain ⟨before, after, rfl⟩ := List.append_of_mem ha
  obtain ⟨front, b, back, rfl, -, hab⟩ := split_partner h
  exact ⟨b, List.mem_append_right _ List.mem_cons_self, hab⟩

end Partners

/-- A file is new behind names just if none of them stands for it. -/
theorem new_iff {before : List Bytes} {found : List (Bytes × κ)}
    (h : List.Forall₂ (Mentions fs dirs) before found) {key : κ} :
    key ∉ found.map Prod.snd ↔
      ∀ earlier ∈ before, ∀ n, Mentions fs dirs earlier n → n.2 ≠ key := by
  constructor
  · rintro hnew earlier hearlier n hn rfl
    obtain ⟨m, hm, hmentions⟩ := exists_partner h hearlier
    rw [hmentions.unique hn] at hm
    exact hnew (List.mem_map_of_mem hm)
  · intro hnew hkey
    obtain ⟨m, hm, rfl⟩ := List.mem_map.mp hkey
    obtain ⟨earlier, hearlier, hmentions⟩ := exists_partner h.flip hm
    exact hnew earlier hearlier m hmentions rfl

variable [BEq κ]

/-- The script of a file: it has the path of the first mention of the file as its name. -/
def IsScriptOf (fs : FileSystem κ) (found : List (Bytes × κ)) (key : κ) (s : Source) : Prop :=
  found.find? (·.2 == key) = some (s.name, key) ∧ fs.read s.name = .ok s.text

/-- One script for each file that is mentioned, in the order of the first mentions. -/
def ScriptsOf (fs : FileSystem κ) (found : List (Bytes × κ)) (scripts : List Source) : Prop :=
  List.Forall₂ (IsScriptOf fs found) (found.map Prod.snd).eraseDups scripts

theorem IsScriptOf.append {found more : List (Bytes × κ)} {key : κ} {s : Source}
    (h : IsScriptOf fs found key s) : IsScriptOf fs (found ++ more) key s := by
  refine ⟨?_, h.2⟩
  rw [List.find?_append, h.1]
  rfl

theorem read_eq (names : List Bytes) (input : Except Failure Bytes) :
    (read fs dirs names input).1 =
      match (names.filter (· ≠ standardInput)).forM (gather fs dirs) ({} : Gathered κ) with
      | .error cause _ => .error cause
      | .ok () g =>
          if standardInput ∈ names then
            match input with
            | .error cause => .error (unreadable standardInput cause)
            | .ok text => .ok (g.sources.reverse ++ [⟨standardInput, text⟩])
          else .ok g.sources.reverse := by
  simp only [read, gatherAll, bind, EStateM.bind, List.contains_iff_mem]
  cases (names.filter (· ≠ standardInput)).forM (gather fs dirs) ({} : Gathered κ) with
  | error cause g => rfl
  | ok _ g =>
      by_cases hinput : standardInput ∈ names
      · simp only [if_pos hinput]
        cases input with
        | error cause => rfl
        | ok text => simp [gatherInput]
      · simp only [if_neg hinput]
        rfl

variable [LawfulBEq κ]

theorem find?_first {before after : List (Bytes × κ)} {m : Bytes × κ}
    (hnew : m.2 ∉ before.map Prod.snd) :
    (before ++ m :: after).find? (·.2 == m.2) = some m := by
  have hnone : before.find? (·.2 == m.2) = none := by
    rw [List.find?_eq_none]
    intro other hother heq
    exact hnew (List.mem_map.mpr ⟨other, hother, eq_of_beq heq⟩)
  rw [List.find?_append, hnone, Option.none_or]
  exact List.find?_cons_of_pos (beq_self_eq_true m.2)

/-- A file that has been mentioned adds nothing. -/
theorem ScriptsOf.again {found : List (Bytes × κ)} {scripts : List Source} {m : Bytes × κ}
    (h : ScriptsOf fs found scripts) (hmet : m.2 ∈ found.map Prod.snd) :
    ScriptsOf fs (found ++ [m]) scripts := by
  have hkeys : ((found ++ [m]).map Prod.snd).eraseDups = (found.map Prod.snd).eraseDups := by
    rw [List.map_append, List.map_singleton, List.eraseDups_append, List.removeAll,
      List.filter_cons_of_neg (by simp [hmet])]
    exact List.append_nil _
  rw [ScriptsOf, hkeys]
  exact h.imp fun _ _ => IsScriptOf.append

theorem ScriptsOf.concat {found : List (Bytes × κ)} {scripts : List Source} {m : Bytes × κ}
    (h : ScriptsOf fs found scripts) (hnew : m.2 ∉ found.map Prod.snd) {text : Bytes}
    (htext : fs.read m.1 = .ok text) : ScriptsOf fs (found ++ [m]) (scripts ++ [⟨m.1, text⟩]) := by
  have hkeys : ((found ++ [m]).map Prod.snd).eraseDups =
      (found.map Prod.snd).eraseDups ++ [m.2] := by
    rw [List.map_append, List.map_singleton, List.eraseDups_append, List.removeAll,
      List.filter_cons_of_pos (by simp [hnew])]
    rfl
  rw [ScriptsOf, hkeys]
  exact List.rel_append (h.imp fun _ _ => IsScriptOf.append) (.cons ⟨find?_first hnew, htext⟩ .nil)

/-- The first mention of each file has been read. -/
theorem ScriptsOf.readable {before after : List (Bytes × κ)} {m : Bytes × κ}
    {scripts : List Source} (h : ScriptsOf fs (before ++ m :: after) scripts)
    (hnew : m.2 ∉ before.map Prod.snd) : ∃ text, fs.read m.1 = .ok text := by
  have hkey : m.2 ∈ ((before ++ m :: after).map Prod.snd).eraseDups :=
    List.mem_eraseDups.mpr (List.mem_map_of_mem (List.mem_append_right _ List.mem_cons_self))
  obtain ⟨s, -, hfirst, htext⟩ := exists_partner h hkey
  rw [find?_first hnew, Option.some.injEq] at hfirst
  rw [hfirst]
  exact ⟨s.text, htext⟩

/-- What has been gathered from files that were found. -/
structure Holds (fs : FileSystem κ) (found : List (Bytes × κ)) (g : Gathered κ) : Prop where
  seen : ∀ key, key ∈ g.seen ↔ key ∈ found.map Prod.snd
  scripts : ScriptsOf fs found g.sources.reverse

/-- A path that can be resolved: its file is new and cannot be read, or it is gathered with those
before it. -/
theorem Holds.gatherFile {found : List (Bytes × κ)} {g : Gathered κ} (h : Holds fs found g)
    {m : Bytes × κ} (hresolved : fs.resolve m.1 = .ok m.2) :
    (∃ cause g', gatherFile fs m.1 g = .error (unreadable m.1 cause) g' ∧
        m.2 ∉ found.map Prod.snd ∧ fs.read m.1 = .error cause) ∨
      ∃ g', gatherFile fs m.1 g = .ok () g' ∧ Holds fs (found ++ [m]) g' := by
  simp only [Source.gatherFile, hresolved]
  by_cases hmet : m.2 ∈ g.seen
  · have hkey := (h.seen m.2).mp hmet
    refine .inr ⟨g, if_pos (List.contains_iff_mem.mpr hmet), fun key => ?_, h.scripts.again hkey⟩
    rw [h.seen, List.map_append, List.mem_append, List.map_singleton, List.mem_singleton]
    exact ⟨.inl, fun hor => hor.elim id fun heq => heq ▸ hkey⟩
  · have hnew : m.2 ∉ found.map Prod.snd := fun hmem => hmet ((h.seen m.2).mpr hmem)
    rw [if_neg (by rwa [List.contains_iff_mem])]
    cases htext : fs.read m.1 with
    | error cause => exact .inl ⟨cause, _, rfl, hnew, rfl⟩
    | ok text =>
        refine .inr ⟨_, rfl, fun key => ?_, ?_⟩
        · rw [List.mem_cons, h.seen, List.map_append, List.mem_append, List.map_singleton,
            List.mem_singleton, or_comm]
        · rw [List.reverse_cons]
          exact h.scripts.concat hnew htext

/-- One name: either nothing is left, or its file is gathered with those before it. -/
theorem Holds.gather {before : List Bytes} {found : List (Bytes × κ)} {g : Gathered κ}
    (h : Holds fs found g) (hbefore : List.Forall₂ (Mentions fs dirs) before found)
    (name : Bytes) :
    (∃ cause g', gather fs dirs name g = .error cause g' ∧ Fails fs dirs before name) ∨
      ∃ m g', gather fs dirs name g = .ok () g' ∧ Mentions fs dirs name m ∧
        Holds fs (found ++ [m]) g' := by
  unfold Source.gather
  cases hlocate : locate? fs dirs name with
  | none =>
      refine .inl ⟨_, _, rfl, .missing ?_⟩
      rintro ⟨path, hlocated⟩
      exact Option.some_ne_none path ((locate?_eq_some_iff.mpr hlocated).symm.trans hlocate)
  | some path =>
      have hlocated := locate?_eq_some_iff.mp hlocate
      -- Events are no part of what is held.
      have hevents : Holds fs found (if fs.isFile name then g else
          { g with events := locatedEvent name path :: g.events }) := by
        split <;> exact ⟨h.seen, h.scripts⟩
      dsimp only
      cases hresolved : fs.resolve path with
      | error cause =>
          simp only [Source.gatherFile, hresolved]
          exact .inl ⟨_, _, rfl, .unresolved hlocated hresolved⟩
      | ok key =>
          have hmentions : Mentions fs dirs name (path, key) := ⟨hlocated, hresolved⟩
          rcases hevents.gatherFile hmentions.resolved with
            ⟨cause, g', hrun, hnew, hcause⟩ | ⟨g', hrun, hholds⟩
          · exact .inl ⟨_, g', hrun, .unreadable hmentions ((new_iff hbefore).mp hnew) hcause⟩
          · exact .inr ⟨(path, key), g', hrun, hmentions, hholds⟩

/-- A run over names without standard input, behind the names `before`. -/
theorem Holds.gatherEach {before : List Bytes} {found : List (Bytes × κ)} {g : Gathered κ}
    (h : Holds fs found g) (hbefore : List.Forall₂ (Mentions fs dirs) before found)
    (names : List Bytes) :
    (∃ cause g', names.forM (Source.gather fs dirs) g = .error cause g' ∧
        ∃ passed name after, names = passed ++ name :: after ∧
          Fails fs dirs (before ++ passed) name) ∨
      ∃ more g', names.forM (Source.gather fs dirs) g = .ok () g' ∧
        List.Forall₂ (Mentions fs dirs) names more ∧ Holds fs (found ++ more) g' := by
  induction names generalizing before found g with
  | nil => exact .inr ⟨[], g, rfl, .nil, by rwa [List.append_nil]⟩
  | cons name names ih =>
      have hrun : (name :: names).forM (Source.gather fs dirs) g =
          EStateM.bind (Source.gather fs dirs name)
            (fun _ => names.forM (Source.gather fs dirs)) g := by
        rw [List.forM_eq_forM, List.forM_cons]
        rfl
      rw [hrun, EStateM.bind]
      rcases h.gather hbefore name with
        ⟨cause, g', hgather, hfails⟩ | ⟨m, g', hgather, hmentions, hnext⟩
      · rw [hgather]
        exact .inl ⟨cause, g', rfl, [], name, names, rfl, by rwa [List.append_nil]⟩
      · rw [hgather]
        rcases ih hnext (List.rel_append hbefore (.cons hmentions .nil)) with
          ⟨cause, g'', hrest, passed, other, after, hsplit, hfails⟩ |
          ⟨more, g'', hrest, hall, hholds⟩
        · refine .inl ⟨cause, g'', hrest, name :: passed, other, after, ?_, ?_⟩
          · rw [hsplit, List.cons_append]
          · rwa [List.append_cons]
        · rw [List.append_assoc] at hholds
          exact .inr ⟨m :: more, g'', hrest, .cons hmentions hall, hholds⟩

/-- Where every name has its script, none fails. -/
theorem not_fails {before after : List Bytes} {name : Bytes} {found : List (Bytes × κ)}
    {scripts : List Source}
    (hall : List.Forall₂ (Mentions fs dirs) (before ++ name :: after) found)
    (hscripts : ScriptsOf fs found scripts) : ¬ Fails fs dirs before name := by
  obtain ⟨front, m, back, rfl, hfront, hmentions⟩ := split_partner hall
  intro hfails
  cases hfails with
  | missing hnone => exact hnone ⟨m.1, hmentions.located⟩
  | unresolved hlocated hcause =>
      rw [hlocated.unique hmentions.located, hmentions.resolved] at hcause
      cases hcause
  | unreadable hmentions' hfirst hcause =>
      rw [hmentions'.unique hmentions] at hfirst hcause
      obtain ⟨text, htext⟩ := hscripts.readable ((new_iff hfront).mpr hfirst)
      cases htext.symm.trans hcause

/-- Reading scripts leaves nothing if a name other than that of standard input stands for no file,
or for one whose path cannot be resolved, or is the first to stand for one that cannot be read, or
if standard input is to be read and cannot be. Else there is one script for each of the files that
the names stand for, in the order of their first mentions and each by the path of its first mention,
and behind them standard input, if it is mentioned anywhere. -/
theorem scripts_in_order_of_mention (fs : FileSystem κ) (dirs names : List Bytes)
    (input : Except Failure Bytes) :
    ((∃ cause, (read fs dirs names input).1 = .error cause) ↔
      (∃ before name after, names.filter (· ≠ standardInput) = before ++ name :: after ∧
        Fails fs dirs before name) ∨
      standardInput ∈ names ∧ ∃ cause, input = .error cause) ∧
    ∀ sources, (read fs dirs names input).1 = .ok sources →
      ∃ found scripts,
        List.Forall₂ (Mentions fs dirs) (names.filter (· ≠ standardInput)) found ∧
        ScriptsOf fs found scripts ∧
        (standardInput ∉ names ∧ sources = scripts ∨
          standardInput ∈ names ∧ ∃ text, input = .ok text ∧
            sources = scripts ++ [⟨standardInput, text⟩]) := by
  have hstart : Holds fs [] ({} : Gathered κ) := ⟨by simp, .nil⟩
  rw [read_eq]
  generalize names.filter (· ≠ standardInput) = others
  have hbefore : List.Forall₂ (Mentions fs dirs) [] [] := .nil
  rcases hstart.gatherEach hbefore others with
    ⟨cause, g, hrun, before, name, after, hsplit, hfails⟩ | ⟨found, g, hrun, hall, hholds⟩
  · rw [hrun]
    exact ⟨iff_of_true ⟨cause, rfl⟩ (.inl ⟨before, name, after, hsplit, hfails⟩),
      fun sources h => by cases h⟩
  · rw [hrun, List.nil_append] at *
    have hnone : ¬ ∃ before name after, others = before ++ name :: after ∧
        Fails fs dirs before name := by
      rintro ⟨before, name, after, rfl, hfails⟩
      exact not_fails hall hholds.scripts hfails
    by_cases hinput : standardInput ∈ names
    · simp only [if_pos hinput]
      cases input with
      | error cause =>
          exact ⟨iff_of_true ⟨_, rfl⟩ (.inr ⟨hinput, cause, rfl⟩), fun sources h => by cases h⟩
      | ok text =>
          refine ⟨iff_of_false (fun ⟨_, h⟩ => by cases h) ?_, fun sources h => ?_⟩
          · exact not_or.mpr ⟨hnone, fun ⟨_, _, h⟩ => by cases h⟩
          · cases h
            exact ⟨found, _, hall, hholds.scripts, .inr ⟨hinput, text, rfl, rfl⟩⟩
    · simp only [if_neg hinput]
      refine ⟨iff_of_false (fun ⟨_, h⟩ => by cases h) ?_, fun sources h => ?_⟩
      · exact not_or.mpr ⟨hnone, fun h => hinput h.1⟩
      · cases h
        exact ⟨found, _, hall, hholds.scripts, .inl ⟨hinput, rfl⟩⟩

/-- A link is met before the file that it leads to, and standard input is asked for before a script
of the include path. -/
theorem linked_script_read_once :
    let tree := FileTree.ofList (utf8 "/w")
      [(utf8 "a", .file (utf8 "A")), (utf8 "l", .link (utf8 "a")), (utf8 "i/b", .file (utf8 "B"))]
    let names := [utf8 "l", standardInput, utf8 "b", utf8 "./a"]
    let sources : List Source :=
      [⟨utf8 "l", utf8 "A"⟩, ⟨utf8 "i/b", utf8 "B"⟩, ⟨standardInput, utf8 "in"⟩]
    (read tree.toFileSystem [utf8 "i"] names (.ok (utf8 "in"))).1 = .ok sources ∧
      ∃ found scripts,
        List.Forall₂ (Mentions tree.toFileSystem [utf8 "i"]) (names.filter (· ≠ standardInput))
          found ∧
        ScriptsOf tree.toFileSystem found scripts ∧
        sources = scripts ++ [⟨standardInput, utf8 "in"⟩] := by
  intro tree names sources
  have hread : (read tree.toFileSystem [utf8 "i"] names (.ok (utf8 "in"))).1 = .ok sources := by cbv
  obtain ⟨-, hsome⟩ :=
    scripts_in_order_of_mention tree.toFileSystem [utf8 "i"] names (.ok (utf8 "in"))
  obtain ⟨found, scripts, hall, hscripts, ⟨hnone, -⟩ | ⟨-, text, htext, hsources⟩⟩ :=
    hsome sources hread
  · exact absurd (by decide) hnone
  · cases htext
    exact ⟨hread, found, scripts, hall, hscripts, hsources⟩

end Source

end Scribe
