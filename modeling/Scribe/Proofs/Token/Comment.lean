import Scribe.Proofs.Text.Pieces
import Scribe.Proofs.Token.Reading
import Scribe.Proofs.Token.Spelling

/-!
# Lines without code

A line is quiet if nothing but white space stands on it, or white space and a comment. A scan makes
nothing of a text exactly if all its lines are quiet.
-/

namespace Scribe

namespace Rune

theorem toNat_of_char {b : UInt8} {rest : Bytes} {c : Char} (h : (first b rest).1.char = c)
    (hc : c.toNat < 0x80) : b.toNat = c.toNat := by
  have hb : b < 0x80 := first_char_ascii (h ▸ hc)
  rw [first_ascii hb] at h
  rw [← h, ascii_toNat]

end Rune

namespace Scan

/-! ## Quiet lines -/

/-- Nothing but white space stands on the line, or white space and a comment. -/
def isQuiet : Bytes → Bool
  | [] => true
  | b :: rest =>
      if b = 0x20 ∨ b = 0x09 ∨ b = 0x0D then isQuiet rest
      else Bytes.startsWith (b :: rest) (utf8 "//")

/-- A scan of the text, which starts on `line`, makes nothing of it. -/
def Silent (line : Nat) (text : Bytes) : Prop :=
  ∃ line' : Nat, run ⟨[], []⟩ line text.runes = ⟨[Token.endOfText line'], []⟩

theorem Spells.silent_iff {line line' : Nat} {text rest : Bytes}
    (h : Spells line text rest [] line') : Silent line (text ++ rest) ↔ Silent line' rest := by
  rw [Silent, Silent, h]
  rfl

theorem Silent.skipped {line : Nat} {text : Bytes} (h : Silent line text) {r : Rune}
    {rs : List Rune} (hrunes : text.runes = r :: rs) : (step r rs).item = .skipped := by
  obtain ⟨line', hrun⟩ := h
  rw [hrunes, run_cons, run_eq, read_eq_behind] at hrun
  simp only [Result.closed, Result.behind, Result.mk.injEq] at hrun
  cases hitem : (step r rs).item with
  | skipped => rfl
  | token kind v =>
      have htokens := congrArg List.length hrun.1
      simp [Result.add, hitem] at htokens
  | fault cause =>
      have hfaults := congrArg List.length hrun.2
      simp [Result.add, hitem] at hfaults

theorem skipped_cases {r : Rune} {rs : List Rune} (h : (step r rs).item = .skipped) :
    (r.char = ' ' ∨ r.char = '\t' ∨ r.char = '\r' ∨ r.char = '\n') ∨
      (r.char = '/' ∧ ∃ s ∈ rs.head?, s.char = '/') := by
  unfold step single pair doubled slash string number word at h
  grind

/-! ## Lines -/

theorem spells_blank (line : Nat) {b : UInt8} (h : b = 0x20 ∨ b = 0x09 ∨ b = 0x0D ∨ b = 0x0A)
    (rest : Bytes) : ∃ line' : Nat, Spells line [b] rest [] line' := by
  rcases h with rfl | rfl | rfl | rfl <;>
    exact ⟨_, spells_skipped line _ rest _ (Bytes.runes_ascii_cons (by decide) rest) rfl⟩

theorem spells_comment (line : Nat) {text : Bytes} (h : Bytes.lineFeed ∉ text) (rest : Bytes) :
    ∃ line' : Nat, Spells line (0x2F :: 0x2F :: text) (Bytes.lineFeed :: rest) [] line' := by
  have hrunes : Bytes.runes (0x2F :: 0x2F :: text ++ Bytes.lineFeed :: rest) =
      Rune.ascii 0x2F :: Rune.ascii 0x2F :: (text.runes ++ lineFeed :: rest.runes) := by
    rw [List.cons_append, List.cons_append, Bytes.runes_ascii_cons (by decide),
      Bytes.runes_ascii_cons (by decide), Bytes.runes_append (by decide),
      Bytes.runes_ascii_cons (by decide)]
    rfl
  have hpass : ∀ r ∈ text.runes, (!isFeed r) = true := by
    have hfeeds := feeds_runes text
    rw [List.count_eq_zero_of_not_mem h, feeds, List.countP_eq_zero] at hfeeds
    simpa using hfeeds
  have hstop : (!isFeed lineFeed) = false := by decide
  refine ⟨_, spells_skipped line _ _ (Rune.ascii 0x2F :: Rune.ascii 0x2F :: text.runes) hrunes ?_⟩
  have hstep : ∀ rs, step (Rune.ascii 0x2F) rs = slash (Rune.ascii 0x2F) rs := fun _ => rfl
  rw [hstep, Bytes.runes_ascii_cons (by decide)]
  simp only [slash, List.takeWhile_append_of_pos hpass, List.dropWhile_append_of_pos hpass,
    List.takeWhile_cons, List.dropWhile_cons, hstop, Bool.false_eq_true, if_false, List.append_nil]
  rfl

theorem spells_line {text : Bytes} (hquiet : isQuiet text = true) (hfeed : Bytes.lineFeed ∉ text)
    (line : Nat) (rest : Bytes) :
    ∃ line' : Nat, Spells line (text ++ [Bytes.lineFeed]) rest [] line' := by
  induction text generalizing line with
  | nil => exact spells_blank line (.inr (.inr (.inr rfl))) rest
  | cons b text ih =>
      rw [isQuiet] at hquiet
      split at hquiet
      · next hblank =>
          obtain ⟨line', hfirst⟩ := spells_blank line
            (hblank.imp_right (Or.imp_right .inl)) (text ++ [Bytes.lineFeed] ++ rest)
          obtain ⟨line'', hothers⟩ :=
            ih hquiet (fun hmem => hfeed (List.mem_cons_of_mem b hmem)) line'
          exact ⟨line'', hfirst.append hothers⟩
      · obtain ⟨comment, hcomment⟩ := List.isPrefixOf_iff_prefix.mp hquiet
        have htext : b :: text = 0x2F :: 0x2F :: comment := hcomment.symm
        rw [htext] at hfeed ⊢
        have hrest : Bytes.lineFeed ∉ comment := by simp_all
        obtain ⟨line', hfirst⟩ := spells_comment line hrest rest
        obtain ⟨line'', hend⟩ := spells_blank line' (.inr (.inr (.inr rfl))) rest
        exact ⟨line'', hfirst.append hend⟩

/-- A line that a scan makes nothing of is quiet. -/
theorem Silent.isQuiet {text rest : Bytes} (hfeed : Bytes.lineFeed ∉ text) {line : Nat}
    (h : Silent line (text ++ Bytes.lineFeed :: rest)) : isQuiet text = true := by
  induction text generalizing line with
  | nil => rfl
  | cons b text ih =>
      rw [Scan.isQuiet]
      split
      · next hblank =>
          obtain ⟨line', hfirst⟩ := spells_blank line
            (hblank.imp_right (Or.imp_right .inl)) (text ++ Bytes.lineFeed :: rest)
          exact ih (fun hmem => hfeed (List.mem_cons_of_mem b hmem)) (hfirst.silent_iff.mp h)
      · next hink =>
          have hrunes := Bytes.runes_cons b (text ++ Bytes.lineFeed :: rest)
          have hb : ∀ c : UInt8, b.toNat = c.toNat → b = c := fun c => UInt8.toNat_inj.mp
          rcases skipped_cases (h.skipped hrunes) with hwhite | ⟨hslash, s, hs, hnext⟩
          · exfalso
            rcases hwhite with hc | hc | hc | hc
            · exact hink (.inl (hb 0x20 (Rune.toNat_of_char hc (by decide))))
            · exact hink (.inr (.inl (hb 0x09 (Rune.toNat_of_char hc (by decide)))))
            · exact hink (.inr (.inr (hb 0x0D (Rune.toNat_of_char hc (by decide)))))
            · have hline : b = Bytes.lineFeed := hb _ (Rune.toNat_of_char hc (by decide))
              exact hfeed (hline ▸ List.mem_cons_self)
          · obtain rfl : b = 0x2F := hb 0x2F (Rune.toNat_of_char hslash (by decide))
            rw [Rune.first_ascii (by decide)] at hs
            cases text with
            | nil =>
                rw [List.nil_append, Bytes.runes_cons] at hs
                cases hs
                exact absurd (Rune.toNat_of_char hnext (by decide)) (by decide)
            | cons c text =>
                rw [List.cons_append, Bytes.runes_cons] at hs
                cases hs
                obtain rfl : c = 0x2F :=
                  UInt8.toNat_inj.mp (Rune.toNat_of_char hnext (by decide))
                rfl

/-! ## Texts -/

theorem spells_quiet {text : Bytes}
    (h : (Bytes.splitOn Bytes.lineFeed text).all isQuiet = true) (line : Nat) (rest : Bytes) :
    ∃ line' : Nat, Spells line (text ++ [Bytes.lineFeed]) rest [] line' := by
  induction hlen : text.length using Nat.strongRecOn generalizing text line with
  | ind n ih =>
      by_cases hfeed : Bytes.lineFeed ∈ text
      · obtain ⟨first, others, rfl, hfirst⟩ := List.eq_append_cons_of_mem hfeed
        rw [Bytes.splitOn_append hfirst, List.all_cons, Bool.and_eq_true] at h
        rw [List.length_append, List.length_cons] at hlen
        obtain ⟨line', hline⟩ :=
          spells_line h.1 hfirst line (others ++ [Bytes.lineFeed] ++ rest)
        obtain ⟨line'', hothers⟩ := ih _ (by omega) h.2 line' rfl
        refine ⟨line'', ?_⟩
        have hboth := hline.append hothers
        simpa using hboth
      · rw [Bytes.splitOn_of_not_mem hfeed] at h
        exact spells_line (by simpa using h) hfeed line rest

/-- A scan makes nothing of a text exactly if its lines are quiet. -/
theorem silent_iff (text : Bytes) (line : Nat) :
    Silent line (text ++ [Bytes.lineFeed]) ↔
      (Bytes.splitOn Bytes.lineFeed text).all isQuiet = true := by
  constructor
  · intro h
    induction hlen : text.length using Nat.strongRecOn generalizing text line with
    | ind n ih =>
        by_cases hfeed : Bytes.lineFeed ∈ text
        · obtain ⟨first, others, rfl, hfirst⟩ := List.eq_append_cons_of_mem hfeed
          rw [List.length_append, List.length_cons] at hlen
          rw [List.append_assoc, List.cons_append] at h
          have hquiet := h.isQuiet hfirst
          obtain ⟨line', hline⟩ := spells_line hquiet hfirst line (others ++ [Bytes.lineFeed])
          rw [← List.singleton_append, ← List.append_assoc, hline.silent_iff] at h
          rw [Bytes.splitOn_append hfirst, List.all_cons, hquiet, Bool.true_and]
          exact ih _ (by omega) others line' h rfl
        · rw [Bytes.splitOn_of_not_mem hfeed]
          simpa using h.isQuiet hfeed
  · intro h
    obtain ⟨line', hspells⟩ := spells_quiet h line []
    have hsilent : Silent line' [] := ⟨line', by simp [run]⟩
    rw [← List.append_nil (text ++ _), hspells.silent_iff]
    exact hsilent

end Scan

end Scribe
