import Scribe.Proofs.Lines.Parse
import Scribe.Proofs.Lines.Run
import Scribe.Proofs.Lines.Scan

/-!
# Programs on other lines

Programs of one text that starts on two lines, and what they do.
-/

namespace Scribe

variable {L : Int → Int → Prop}

/-- Where parsing starts behind items that were read up to `line`. -/
def Scan.Result.cursor (done : Scan.Result) (line : Nat) : Parse.Cursor :=
  ⟨done.tokens.reverse, Token.endOfText line, []⟩

theorem Scan.Result.Alike.cursor {done done' : Scan.Result} (h : Scan.Result.Alike L done done')
    {line line' : Nat} (hend : (Token.endOfText line).Alike L (Token.endOfText line')) :
    (done.cursor line).Alike L (done'.cursor line') :=
  ⟨List.rel_reverse h.tokens, hend, .nil⟩

theorem parse_closed {done : Scan.Result} (hdone : ∀ t ∈ done.tokens, t.isEnd = false)
    (line limit : Nat) :
    parse (done.closed line).tokens limit =
      ⟨(Parse.program limit (done.cursor line)).1,
        (Parse.program limit (done.cursor line)).2.reports.reverse⟩ := by
  have hbody : ∀ t ∈ done.tokens.reverse, t.isEnd = false := by simpa using hdone
  rw [Parse.parse_eq, Scan.Result.closed, Parse.start_of_body hbody rfl]
  rfl

namespace Program

def start (line : Nat) (source : Bytes) : Parse.Cursor :=
  (Scan.reading line source).cursor (line + source.count Bytes.lineFeed)

/-- The program of a text whose first line is `line`. -/
def fromLine (line : Nat) (source : Bytes) (limit : Nat) : Program where
  source := source
  limit := limit
  tokens := ((Scan.reading line source).closed (line + source.count Bytes.lineFeed)).tokens
  stmts := (Parse.program limit (start line source)).1
  faults := (Scan.reading line source).faults.reverse
  reports := (Parse.program limit (start line source)).2.reports.reverse

theorem ofSource_eq (source : Bytes) (limit : Nat) :
    ofSource source limit = fromLine 1 source limit := by
  have hparse := parse_closed (Scan.reading_isEnd 1 source) (1 + source.count Bytes.lineFeed) limit
  simp only [ofSource, scan_eq, hparse]
  rfl

structure Alike (L : Int → Int → Prop) (p q : Program) : Prop where
  stmts : List.Forall₂ (Stmt.Alike L) p.stmts q.stmts
  faults : List.Forall₂ (Diagnostic.Alike L .lexical) p.faults q.faults
  reports : List.Forall₂ (Diagnostic.Alike L .syntactic) p.reports q.reports

theorem fromLine_alike {line line' : Nat} {source : Bytes}
    (hlines : Scan.Shifted L line line' (source.count Bytes.lineFeed)) (limit : Nat) :
    (fromLine line source limit).Alike L (fromLine line' source limit) := by
  have hread := Scan.reading_alike hlines
  have hparse := Parse.program_alike limit (hread.cursor (Scan.endOfText_alike hlines))
  exact ⟨hparse.found, List.rel_reverse hread.faults, List.rel_reverse hparse.cursor.reports⟩

/-- The trees of a text are whole, and its diagnostics stand on its lines. -/
theorem ofSource_alike {source : Bytes}
    (hlines : Scan.Shifted L 1 1 (source.count Bytes.lineFeed)) (limit : Nat) :
    (ofSource source limit).Alike L (ofSource source limit) := by
  rw [ofSource_eq]
  exact fromLine_alike hlines limit

end Program

namespace Interpreter

def executed (i : Interpreter) (p : Program) : Progress :=
  executeEach i.options p.stmts ⟨i.machine, []⟩

theorem runProgram_diagnostics (i : Interpreter) (p : Program) :
    (i.runProgram p).diagnostics = p.faults ++ p.reports ++ (i.executed p).faults.reverse := rfl

theorem executed_alike (i : Interpreter) {p : Program} (hp : p.Alike L p) :
    List.Forall₂ (Diagnostic.Alike L .runtime) (i.executed p).faults (i.executed p).faults :=
  (executeEach_alike i.options hp.stmts ⟨⟨rfl, rfl, rfl⟩, .nil⟩).faults

end Interpreter

end Scribe
