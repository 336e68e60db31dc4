import Scribe.Document.Write
import Scribe.Proofs.Program.Reported
import Scribe.Proofs.Tree.Faithful

/-!
# The lines of a token dump

A dump has a line feed behind every token. It shows the spelling of a token as it is, and a string
may be spelled over several lines, so a dump can be read line by line exactly when no string is.
Nothing else that is shown of a token holds a line feed.
-/

namespace Scribe

namespace Token

open Bytes (lineFeed)

/-- What is shown of a token behind its line number and its category. -/
def detail (t : Token) : Bytes :=
  match t.kind with
  | .string => [Bytes.space] ++ t.lexeme ++ [Bytes.space] ++ t.literal.asText.quoted
  | .number => [Bytes.space] ++ t.lexeme ++ [Bytes.space] ++ t.literal.display
  | .eof => []
  | _ => [Bytes.space] ++ t.lexeme

/-- What is shown of a token, without the line feed behind it. -/
def summary (t : Token) : Bytes :=
  Bytes.ofInt t.line ++ [Bytes.space] ++ t.kind.name ++ t.detail

theorem dumpLine_eq (t : Token) : t.dumpLine = t.summary ++ [lineFeed] := by
  unfold dumpLine summary detail
  cases t.kind <;> simp

/-- The line starts with the line number and the category of the token, and if anything follows,
there is a space in between. -/
def Starts (t : Token) (line : Bytes) : Prop :=
  ∃ rest, line = Bytes.ofInt t.line ++ [Bytes.space] ++ t.kind.name ++ rest ∧
    ∀ b ∈ rest.head?, b = Bytes.space

theorem starts_summary (t : Token) : t.Starts t.summary := by
  refine ⟨t.detail, rfl, fun b hb => ?_⟩
  unfold detail at hb
  cases hkind : t.kind <;> simp_all

/-- Line feeds are shown of the spelling of a string only. -/
theorem count_summary {t : Token} (hlexeme : t.kind ≠ .string → lineFeed ∉ t.lexeme)
    (hliteral : t.kind = .number → ∃ f, t.literal = .number f) :
    t.summary.count lineFeed = if t.kind = .string then t.lexeme.count lineFeed else 0 := by
  have hhead : (Bytes.ofInt t.line ++ [Bytes.space] ++ t.kind.name).count lineFeed = 0 := by
    rw [List.count_eq_zero]
    simp only [List.mem_append, not_or]
    exact ⟨⟨Bytes.lineFeed_not_mem_ofInt t.line, by decide⟩, t.kind.lineFeed_not_mem_name⟩
  have hspace : [Bytes.space].count lineFeed = 0 := by decide
  rw [summary, List.count_append, hhead, Nat.zero_add]
  unfold detail
  split
  · next hkind =>
      have hquoted := List.count_eq_zero.mpr
        (Quoted.lineFeed_not_mem_quoted t.literal.asText)
      rw [if_pos hkind, List.count_append, List.count_append, List.count_append, hspace, hquoted]
      omega
  · next hkind =>
      have hnot : t.kind ≠ .string := by rw [hkind]; decide
      obtain ⟨f, hf⟩ := hliteral hkind
      have hshown : lineFeed ∉ t.literal.display := Value.lineFeed_not_mem_display (by simp [hf])
      rw [if_neg hnot, List.count_append, List.count_append, List.count_append, hspace,
        List.count_eq_zero.mpr (hlexeme hnot), List.count_eq_zero.mpr hshown]
  · next hkind => rw [if_neg (by rw [hkind]; decide), List.count_nil]
  · next hnot _ _ =>
      rw [if_neg hnot, List.count_append, hspace, List.count_eq_zero.mpr (hlexeme hnot)]

theorem count_summary_of_scan {source : Bytes} {t : Token} (ht : t ∈ (scan source).tokens) :
    t.summary.count lineFeed = if t.kind = .string then t.lexeme.count lineFeed else 0 := by
  obtain ⟨ts, last, hsource, hts⟩ := scan_lexemes source
  rw [hsource, List.mem_append, List.mem_singleton] at ht
  rcases ht with ht | rfl
  · refine count_summary (hts t ht).oneLine fun hkind => ?_
    obtain ⟨f, hf, -⟩ := (hts t ht).of_number hkind
    exact ⟨f, hf⟩
  · exact count_summary (fun _ => List.not_mem_nil) fun hkind => by cases hkind

/-- Tokens written in native form are the lines of their summaries. -/
theorem writeAll_contents (tokens : List Token) :
    (Token.writeAll tokens .unlimited).2.contents = Bytes.lined (tokens.map summary) := by
  rw [Token.writeAll, Sink.writeEach_contents _ rfl, Bytes.lined, List.flatMap_def, List.map_map]
  exact congrArg List.flatten (List.map_congr_left fun t _ => t.dumpLine_eq)

/-- A text is a listing of tokens if it has one line for each of them, which starts with the line
number and the category of the token. -/
def IsListing (tokens : List Token) (text : Bytes) : Prop :=
  text.count lineFeed = tokens.length ∧
    ∃ lines, Bytes.splitOn lineFeed text = lines ++ [[]] ∧ List.Forall₂ Starts tokens lines

/-- Line feeds are counted where they are shown. -/
theorem sum_count_summary {tokens : List Token}
    (h : ∀ t ∈ tokens, t.summary.count lineFeed =
      if t.kind = .string then t.lexeme.count lineFeed else 0) :
    (tokens.map (·.summary.count lineFeed)).sum =
      ((tokens.filter (·.kind = .string)).map (·.lexeme.count lineFeed)).sum := by
  induction tokens with
  | nil => rfl
  | cons t tokens ih =>
      rw [List.forall_mem_cons] at h
      rw [List.map_cons, List.sum_cons, h.1, ih h.2, List.filter_cons]
      by_cases hkind : t.kind = .string <;> simp [hkind]

/-- The dump of a script has a line for each token and one more for each line feed inside of a
string. It is a listing of the tokens exactly when no string is spelled over several lines. -/
theorem dump_listing_iff (source : Bytes) :
    let tokens := (scan source).tokens
    let dump := (Token.writeAll tokens .unlimited).2.contents
    dump.count lineFeed = tokens.length +
        ((tokens.filter (·.kind = .string)).map (·.lexeme.count lineFeed)).sum ∧
      (IsListing tokens dump ↔ ∀ t ∈ tokens, t.kind = .string → lineFeed ∉ t.lexeme) := by
  intro tokens dump
  have hdump : dump = Bytes.lined (tokens.map summary) := writeAll_contents tokens
  have hshown : ∀ t ∈ tokens, t.summary.count lineFeed =
      if t.kind = .string then t.lexeme.count lineFeed else 0 := fun t => count_summary_of_scan
  have hcount : dump.count lineFeed = tokens.length +
      ((tokens.filter (·.kind = .string)).map (·.lexeme.count lineFeed)).sum := by
    rw [hdump, Bytes.count_lined, List.length_map, List.map_map, ← sum_count_summary hshown]
    rfl
  have hlines := Bytes.splitOn_lined_iff (tokens.map summary)
  rw [← hdump, List.length_map, List.forall_mem_map] at hlines
  refine ⟨hcount, fun h t ht hkind => ?_, fun hone => ?_⟩
  · have hnone := h.1
    rw [hcount, Nat.add_eq_left, List.sum_eq_zero_iff] at hnone
    rw [← List.count_eq_zero]
    exact hnone _ (List.mem_map_of_mem (List.mem_filter.mpr ⟨ht, by simpa using hkind⟩))
  · obtain ⟨hlength, hsplit⟩ := hlines.mpr fun t ht => by
      rw [← List.count_eq_zero, hshown t ht]
      split
      · next hkind => exact List.count_eq_zero.mpr (hone t ht hkind)
      · rfl
    refine ⟨hlength, tokens.map summary, hsplit, ?_⟩
    exact List.forall₂_map_right_iff.mpr (List.forall₂_same.mpr fun t _ => t.starts_summary)

/-- A string over two lines is dumped over two lines, so a dump may be no listing. -/
theorem two_line_string_not_listed :
    ¬ ∀ source : Bytes, IsListing (scan source).tokens
      (Token.writeAll (scan source).tokens .unlimited).2.contents := by
  intro h
  have hcount := (h (utf8 "\"a\nb\"")).1
  exact absurd hcount (by decide +kernel)

end Token

end Scribe
