import Scribe.Program
import Scribe.Scope
import Scribe.Text.Space
import Scribe.Value.Literal

/-!
# Editing a session

The bindings of a session are offered as a script in an editor. What is saved replaces the
session, once it compiles; a script that does not compile is offered again, or discarded.
-/

namespace Scribe

namespace Edit

/-- The declaration of a binding; a value that has no literal is left as a comment. -/
def declaration (name : Bytes) (v : Value) : Bytes :=
  match v.literal? with
  | some literal => utf8 "let " ++ name ++ utf8 " = " ++ literal ++ utf8 ";\n"
  | none => utf8 "// let " ++ name ++ utf8 " = " ++ v.display ++ utf8 ";\n"

def script (b : Bindings) : Bytes :=
  utf8 "// Session bindings. Saving replaces the session with this script.\n" ++
    b.entries.flatMap fun (name, v) => declaration name v

inductive Result where
  | accepted (source : Bytes)
  | cancelled
  | declined
  | failed (reason : Bytes)
  deriving DecidableEq

/-! ## Answers

An input is given by what its reads return, one after the other. A read that returns nothing is the
end of the input, and so is whatever stands behind the last read. -/

/-- Reads at most `room` bytes. What a read would return beyond them is left for the next one. -/
def nextRead (room : Nat) : List Bytes → Bytes × List Bytes
  | [] => ([], [])
  | piece :: rest =>
      if piece.length ≤ room then (piece, rest) else (piece.take room, piece.drop room :: rest)

def bufferSizes : List Nat := [4096, 8192, 16384, 32768, 65536]

/-- The line that `held` is the start of. Reading ends with a line feed, and what has been read
beyond it is lost. A line that does not fit into the largest buffer is none. -/
def scanLine (held : Bytes) (input : List Bytes) : Option Bytes × List Bytes :=
  if held.contains Bytes.lineFeed then (some (held.takeWhile (· ≠ Bytes.lineFeed)), input)
  else
    match _hsize : bufferSizes.find? (held.length < ·) with
    | none => (none, input)
    | some size =>
        match nextRead (size - held.length) input with
        | ([], input) => (if held.isEmpty then none else some held, input)
        | (b :: piece, input) => scanLine (held ++ b :: piece) input
termination_by 65536 - held.length
decreasing_by
  have hfits := List.find?_some _hsize
  have hlargest : ∀ size ∈ bufferSizes, size ≤ 65536 := by decide
  have hle := hlargest size (List.mem_of_find?_eq_some _hsize)
  simp only [decide_eq_true_eq] at hfits
  simp only [List.length_append, List.length_cons]
  omega

/-- The line that answers a prompt, and the input behind what the prompt has read. -/
def answer (input : List Bytes) : Option Bytes × List Bytes := scanLine [] input

def accepts (reply : Bytes) : Bool :=
  let word := Bytes.trim (Bytes.lower reply)
  !(word = utf8 "n" || word = utf8 "no")

structure Log where
  /-- What each run of the editor was given. -/
  offered : List Bytes := []
  out : Bytes := []
  errs : Bytes := []
  result : Result

def question : Bytes := utf8 "Re-edit? [Y/n] "

/-- Runs the editor on `content`. `saves` holds what its runs save; when none is left, the editor
fails. -/
def loop (failure : Bytes) : (saves : List Bytes) → (content : Bytes) → (input : List Bytes) → Log
  | [], content, _ => { offered := [content], result := .failed failure }
  | saved :: saves, content, input =>
      if Bytes.isBlank saved then { offered := [content], result := .cancelled }
      else
        let diagnostics := (Program.ofSource saved defaultLimit).diagnostics
        if diagnostics.isEmpty then { offered := [content], result := .accepted saved }
        else
          let errs := diagnostics.flatMap fun d => d.text ++ [Bytes.lineFeed]
          match answer input with
          | (none, _) => { offered := [content], out := question, errs, result := .declined }
          | (some reply, input) =>
              if accepts reply then
                let rest := loop failure saves saved input
                { offered := content :: rest.offered
                  out := question ++ rest.out
                  errs := errs ++ rest.errs
                  result := rest.result }
              else { offered := [content], out := question, errs, result := .declined }

def edit (b : Bindings) (failure : Bytes) (saves input : List Bytes) : Log :=
  loop failure saves (script b) input

/-- Edits bindings with an input that a single read returns. -/
def run (b : Bindings) (failure : Bytes) (saves : List Bytes) (input : Bytes) : Log :=
  edit b failure saves [input]

end Edit

end Scribe
