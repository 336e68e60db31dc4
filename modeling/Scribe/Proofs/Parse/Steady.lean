import Scribe.Proofs.Parse.Append
import Scribe.Proofs.Parse.Ending

/-!
# Parsing ends and leaves nothing behind

The walk over a list of tokens ends at its first end mark, and does not depend on what stands behind
that mark. Every round of the outermost loop begins at no depth and with the flag lowered, and takes
a token.
-/

namespace Scribe

namespace Walk

open Parse (Cursor Run Production Tier)

variable {way : Way} {stop : Nat} {w w' : Walker} {c c' : Cursor}

/-! ## Where walks begin -/

/-- The tokens up to the first end mark, as they are read, are those that are walked over. -/
theorem ended_eq (tokens : List Token) : ∃ behind, ended tokens =
    tokens.takeWhile (!Token.isEnd ·) ++ Parse.endMark tokens :: behind := by
  cases hfound : tokens.find? Token.isEnd with
  | some t =>
      obtain ⟨hend, before, after, hsplit, hbefore⟩ := List.find?_eq_some_iff_append.mp hfound
      have hmark : Parse.endMark tokens = t := by rw [Parse.endMark, hfound, Option.getD_some]
      have hbody : tokens.takeWhile (!Token.isEnd ·) = before := by
        rw [hsplit, List.takeWhile_append_of_pos hbefore]
        simp [hend]
      rw [hbody, hmark]
      unfold ended
      split
      · next hlast => simp [List.getLast?_eq_none_iff.mp hlast] at hsplit
      · split
        · exact ⟨after, hsplit⟩
        · next u _ _ =>
          refine ⟨after ++ [.endOfText u.line], ?_⟩
          nth_rewrite 1 [hsplit]
          simp
  | none =>
      have hnone : ∀ t ∈ tokens, t.isEnd = false := by simpa using hfound
      have hbody : tokens.takeWhile (!Token.isEnd ·) = tokens := by
        rw [List.takeWhile_eq_self_iff]
        simpa using hnone
      refine ⟨[], ?_⟩
      rw [hbody, Parse.endMark, hfound, Option.getD_none]
      unfold ended
      split
      · next hlast => rw [List.getLast?_eq_none_iff.mp hlast]; rfl
      · next t hlast =>
        rw [if_neg (by simp [hnone t (List.mem_of_getLast? hlast)]), hlast]
        rfl

theorem stands_start (tokens beyond : List Token) (limit : Nat) :
    Stands ⟨tokens.takeWhile (!Token.isEnd ·) ++ Parse.endMark tokens :: beyond, limit⟩
      (tokens.takeWhile (!Token.isEnd ·)).length {} (Parse.start tokens) where
  place := Nat.zero_add _
  ahead := ⟨beyond, rfl⟩
  rest t ht := by simpa using List.mem_takeWhile_imp ht
  finish := Parse.endMark_isEnd tokens
  reports := rfl

/-- The walk ends at the first end mark, whatever stands behind it. -/
theorem program_start (tokens beyond : List Token) (limit : Nat) :
    Way.program ⟨tokens.takeWhile (!Token.isEnd ·) ++ Parse.endMark tokens :: beyond, limit⟩ {} =
      some (.ok (parse tokens limit).stmts,
        { place := (tokens.takeWhile (!Token.isEnd ·)).length
          reports := (Parse.program limit (Parse.start tokens)).2.reports }) := by
  obtain ⟨⟨place, depth, unwinding, reports⟩, hprogram, hstands, hdepth, hflag⟩ :=
    program_walks (stands_start tokens beyond limit) rfl rfl
  have hplace := hstands.place
  rw [Parse.program_rest limit (Parse.endMark_isEnd tokens), List.length_nil, Nat.add_zero]
    at hplace
  obtain rfl : place = _ := hplace
  obtain rfl : depth = 0 := hdepth
  obtain rfl : unwinding = false := hflag
  obtain rfl : reports = _ := hstands.reports
  rw [hprogram]
  rfl

theorem ended_last (tokens : List Token) :
    ∃ before finish, ended tokens = before ++ [finish] ∧ finish.isEnd := by
  unfold ended
  split
  · exact ⟨[], _, rfl, rfl⟩
  · next t hlast =>
    split
    · next hend => exact ⟨_, t, (List.dropLast_append_getLast? t hlast).symm, hend⟩
    · exact ⟨tokens, _, rfl, rfl⟩

theorem stands_of_lt {tokens : List Token} {setting : Int}
    (h : w.place < (Way.along tokens setting).text.length) :
    ∃ stop c, Stands (Way.along tokens setting) stop w c := by
  obtain ⟨before, finish, hsplit, hend⟩ := ended_last tokens
  replace hsplit : (Way.along tokens setting).text = before ++ [finish] := hsplit
  have hmem : finish ∈ (Way.along tokens setting).text.drop w.place := by
    rw [hsplit, List.length_append, List.length_singleton] at h
    rw [hsplit, List.drop_append_of_le_length (Nat.le_of_lt_succ h)]
    exact List.mem_append_right _ (List.mem_singleton_self finish)
  obtain ⟨t, ht⟩ := Option.isSome_iff_exists.mp (List.find?_isSome.mpr ⟨finish, hmem, hend⟩)
  obtain ⟨htend, body, behind, hdrop, hbody⟩ := List.find?_eq_some_iff_append.mp ht
  exact ⟨_, ⟨body, t, w.reports⟩, rfl, ⟨behind, hdrop⟩, by simpa using hbody, htend, rfl⟩

/-! ## The rounds of the outermost loop -/

/-- Where the rounds of the outermost loop begin. -/
inductive Rounds (way : Way) : Walker → Prop
  | first : Rounds way {}
  | next {w w' : Walker} {s : Option Stmt} (h : Rounds way w)
      (hmore : way.atEnd w = some (.ok false, w))
      (hround : way.declaration w = some (.ok s, w')) : Rounds way w'

theorem Rounds.stands (hstart : Stands way stop {} c) (h : Rounds way w) :
    ∃ c, Stands way stop w c ∧ w.depth = 0 ∧ w.unwinding = false := by
  induction h with
  | first => exact ⟨c, hstart, rfl, rfl⟩
  | next _ hmore hround ih =>
      obtain ⟨c, hstands, hdepth, hflag⟩ := ih
      have hne : c.rest ≠ [] := by
        intro hnil
        rw [hstands.atEnd, hnil] at hmore
        cases hmore
      obtain ⟨w', hdecl, hstands', hdepth', hflag', -⟩ := round hstands hflag hdepth hne
      rw [hdecl] at hround
      cases hround
      exact ⟨_, hstands', hdepth', hflag'⟩

end Walk

open Walk in
/-- Whatever the tokens and the limit, the parser walks from the first token to the first end mark
and no further, does not leave the list, and comes to the statements and reports of `parse`. What
stands behind that end mark makes no difference. Every part of it that is begun in the list gives
back its depth. Every round of the outermost loop begins at no depth and with the flag lowered, goes
on by a token at least, and reports at most once that statements nest too deeply. -/
theorem parse_walks (tokens : List Token) (setting : Int) :
    let way := Way.along tokens setting
    let stop := (tokens.takeWhile (!Token.isEnd ·)).length
    (∃ reports, way.program {} = some (.ok (parse tokens way.limit).stmts,
        { place := stop, depth := 0, unwinding := false, reports }) ∧
      reports.reverse = (parse tokens way.limit).reports) ∧
    (∀ beyond : List Token, Way.program { way with
        text := tokens.takeWhile (!Token.isEnd ·) ++ Parse.endMark tokens :: beyond } {} =
      way.program {}) ∧
    (∀ w : Walker, w.place < way.text.length → AllReturn way w) ∧
    ∀ w, Rounds way w → w.depth = 0 ∧ w.unwinding = false ∧ w.place ≤ stop ∧
      (w.place < stop → ∃ s w', way.declaration w = some (.ok s, w') ∧
        w.place < w'.place ∧ w'.excess ≤ w.excess + 1) := by
  intro way stop
  obtain ⟨behind, hended⟩ := ended_eq tokens
  have hway : way = ⟨tokens.takeWhile (!Token.isEnd ·) ++ Parse.endMark tokens :: behind,
      way.limit⟩ := by
    rw [← hended]
    rfl
  have hprogram := program_start tokens behind way.limit
  have hstart := stands_start tokens behind way.limit
  rw [← hway] at hprogram hstart
  refine ⟨⟨_, hprogram, rfl⟩,
    fun beyond => (program_start tokens beyond way.limit).trans hprogram.symm,
    fun w hlt => ?_, fun w hround => ?_⟩
  · obtain ⟨_, c, hstands⟩ := stands_of_lt hlt
    exact allReturn hstands
  · obtain ⟨c, hstands, hdepth, hflag⟩ := hround.stands hstart
    have hplace := hstands.place
    refine ⟨hdepth, hflag, by omega, fun hlt => ?_⟩
    have hne : c.rest ≠ [] := by
      intro hnil
      rw [hnil, List.length_nil] at hplace
      omega
    obtain ⟨w', hdecl, -, -, -, hfurther, hexcess⟩ := round hstands hflag hdepth hne
    exact ⟨_, w', hdecl, hfurther, hexcess⟩

open Walk in
/-- The first round in front of a token of no category, with an end mark inside of the list. -/
theorem unnamed_token_walked :
    let way := Way.along [{ kind := .ofCode 99, lexeme := [], line := 1 }, .endOfText 1,
      { kind := .kwPrint, lexeme := [], line := 2 }] 0
    ∃ s w', way.declaration {} = some (.ok s, w') ∧ 0 < w'.place ∧ w'.excess ≤ 1 := by
  intro way
  obtain ⟨-, -, -, hrounds⟩ := parse_walks [{ kind := .ofCode 99, lexeme := [], line := 1 },
    .endOfText 1, { kind := .kwPrint, lexeme := [], line := 2 }] 0
  obtain ⟨-, -, -, hfurther⟩ := hrounds {} .first
  exact hfurther (by decide)

end Scribe
