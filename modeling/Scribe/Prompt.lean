import Scribe.Prompt.Completion
import Scribe.Prompt.Edit
import Scribe.Prompt.Fuzzy
import Scribe.Prompt.Hint
import Scribe.Prompt.History
import Scribe.Prompt.LineEditor
import Scribe.Prompt.Session

/-!
# The prompt

State of an interactive prompt, and what each event does to it. Where a step would have to cut
the line outside its bounds, the step does not exist: the step functions are partial in that
sense, and give `none`.

The editor of the line, the search among candidates and the display are interfaces, so that what
is said of a prompt is said whatever they are.
-/

namespace Scribe

namespace Prompt

/-- What a prompt is made of besides its own state. -/
class Parts (ε : Type) extends LineInput ε where
  /-- The candidates that a pattern matches, best first. -/
  find : (pattern : Bytes) → (candidates : List Bytes) → List Fuzzy.Match
  display : Display

instance : Parts LineEditor where
  find := Fuzzy.find
  display := .ansi

inductive Key where
  | enter
  | tab
  | backTab
  | up
  | down
  | escape
  | interrupt
  | endOfInput
  /-- Characters that arrive at once. -/
  | typed (cs : List Char)
  | edit (command : LineInput.Command)

inductive Event where
  | key (k : Key)
  | resize (width : Int)
  | edited (result : Edit.Result)
  /-- What leaves the line alone, as the blinking of the cursor does. Text from the clipboard, which
  comes some time after its key and which the editor inserts without the prompt computing the word
  anew, is left out. -/
  | other

inductive Effect where
  | print (text : Bytes)
  | quit
  | clear
  | edit
  deriving DecidableEq

def defaultWidth : Int := 80

end Prompt

structure Prompt (ε : Type := LineEditor) where
  editor : ε
  session : Session
  history : History
  /-- The history entry that is shown; the size of the history if none is. -/
  place : Nat
  /-- The candidates that match the word at the cursor. -/
  found : List Fuzzy.Match := []
  /-- The word at the cursor, as last computed. -/
  word : Word.Span := ⟨0, 0⟩
  selected : Option Nat := none
  /-- Whether candidates are being tried one after the other. -/
  cycling : Bool := false
  /-- The line before the first candidate was tried, and the place of its cursor. -/
  untried : Bytes × Nat := ([], 0)
  width : Int := Prompt.defaultWidth
  quitting : Bool := false

namespace Prompt

variable {ε : Type} [Parts ε]

def start (session : Session) (history : History) : Prompt ε :=
  { editor := LineInput.blank, session, history, place := history.size }

def text (p : Prompt ε) : List Char := LineInput.text p.editor

def cursor (p : Prompt ε) : Nat := LineInput.cursor p.editor

def line (p : Prompt ε) : Bytes := LineInput.bytes p.editor

def stay (p : Prompt ε) : Option (Prompt ε × List Effect) := some (p, [])

/-! ## Candidates -/

/-- The candidates that match the word at the cursor. A colon alone matches only at the start of
the line. -/
def search (p : Prompt ε) (word : Bytes) (start : Nat) : List Fuzzy.Match :=
  if word.isEmpty || (word = utf8 ":" && 0 < start) then []
  else
    let candidates := Completion.candidates p.session.bindings p.line start
    if candidates.isEmpty then [] else Parts.find ε word candidates

/-- Computes word and candidates anew. If `confirm` is set and the word is the only candidate,
there is nothing left to complete. -/
def refresh (p : Prompt ε) (confirm : Bool) : Option (Prompt ε) :=
  if p.cycling then some p
  else
    let word := Word.around p.line p.cursor
    match word.slice? p.line with
    | none => none
    | some text =>
        let found := p.search text word.start
        let settled :=
          match found with
          | [m] => confirm && m.text == text
          | _ => false
        some { p with word, selected := none, found := if settled then [] else found }

def replaceWord (p : Prompt ε) (text : Bytes) : Option (Prompt ε) :=
  if p.word.start ≤ p.line.length ∧ p.word.finish ≤ p.line.length then
    let line := p.line.take p.word.start ++ text ++ p.line.drop p.word.finish
    let cursor := p.word.start + text.length
    some
      { p with
        editor := LineInput.moveTo (LineInput.setBytes p.editor line) cursor
        word := { p.word with finish := cursor } }
  else none

inductive Direction where
  | forward
  | backward
  deriving DecidableEq, Repr

def Direction.next (d : Direction) (selected : Option Nat) (count : Nat) : Nat :=
  match d, selected with
  | .forward, none => 0
  | .backward, none => count - 1
  | .forward, some i => (i + 1) % count
  | .backward, some i => (i + count - 1) % count

/-- Tries the next candidate. A single candidate is taken at once. -/
def cycle (p : Prompt ε) (d : Direction) : Option (Prompt ε) :=
  match p.found with
  | [] => some p
  | [m] => (p.replaceWord m.text).map ({ · with cycling := false, selected := none, found := [] })
  | found =>
      let i := d.next (if p.cycling then p.selected else none) found.length
      let p :=
        { p with
          cycling := true
          untried := if p.cycling then p.untried else (p.line, p.cursor)
          selected := some i }
      match found[i]? with
      | some m => p.replaceWord m.text
      | none => none

/-! ## Lines -/

def clearLine (p : Prompt ε) : Option (Prompt ε) :=
  { p with
    editor := LineInput.setBytes p.editor []
    cycling := false
    place := p.history.size }.refresh false

def showEntry (p : Prompt ε) : Option (Prompt ε) :=
  match p.history.get? p.place with
  | none => some p
  | some line =>
      { p with
        cycling := false
        editor := LineInput.moveTo (LineInput.setBytes p.editor line) line.length }.refresh false

def older (p : Prompt ε) : Option (Prompt ε) :=
  if 0 < p.place then { p with place := p.place - 1 }.showEntry else some p

def newer (p : Prompt ε) : Option (Prompt ε) :=
  if p.place + 1 < p.history.size then { p with place := p.place + 1 }.showEntry
  else p.clearLine

/-- Changes the line; every such change ends the trying of candidates and the view of the
history. -/
def change (p : Prompt ε) (confirm : Bool) (f : ε → ε) : Option (Prompt ε) :=
  { p with editor := f p.editor, cycling := false, place := p.history.size }.refresh confirm

/-! ## Entering a line -/

section Shown

variable (d : Display)

/-- The lines that a result is shown as: output, value, diagnostics. -/
def resultLines (r : Session.Outcome) : List Bytes :=
  let output := Bytes.dropTail r.output [Bytes.lineFeed]
  (if output.isEmpty then [] else [d.render .output output]) ++
    (r.value.map fun v => d.render .result v.shown).toList ++
    r.diagnostics.map fun diagnostic => d.render .error diagnostic.text

def printed (r : Session.Outcome) : List Effect :=
  match resultLines d r with
  | [] => []
  | lines => [.print (Bytes.join [Bytes.lineFeed] lines)]

def echo (line : Bytes) : Effect :=
  .print (d.render .prompt (utf8 "➜ ") ++ d.render .input line)

end Shown

def help : Bytes :=
  utf8 <| String.intercalate "\n"
    ["",
      "Commands:",
      "",
      "  :help    Print this cruft",
      "  :vars    List session variables",
      "  :edit    Edit session variables in external $EDITOR",
      "  :reset   Discard all session variables",
      "  :clear   Clear screen",
      "  :quit    Exit REPL",
      "",
      "Usage:",
      "  Enter a statement to execute it, or an expression to print its value",
      "  A missing trailing semicolon is inserted",
      "  Completions appear automatically as you type",
      "  Press Tab / Shift-Tab to cycle through candidates",
      "  Press Space to accept the current candidate",
      "  Press Esc to cancel cycling or clear the line",
      "  Use Up/Down arrows for history navigation",
      "  Press Ctrl+C on empty line or Ctrl+D to exit",
      ""]

inductive Command where
  | quit
  | help
  | list
  | reset
  | clear
  | edit
  | unknown (name : Bytes)
  deriving DecidableEq

def Command.spellings : List (String × Command) :=
  [("q", .quit), ("quit", .quit), ("exit", .quit), ("h", .help), ("help", .help), ("v", .list),
    ("vars", .list), ("r", .reset), ("reset", .reset), ("c", .clear), ("clear", .clear),
    ("e", .edit), ("edit", .edit)]

/-- The command of a line that starts with a colon: its first word counts. -/
def Command.read (line : Bytes) : Command :=
  let word := (Bytes.words line).headD []
  let name := (Bytes.dropStart? word (utf8 ":")).getD word
  match spellings.find? fun (spelling, _) => utf8 spelling = name with
  | some (_, command) => command
  | none => .unknown name

def display (_ : Prompt ε) : Display := Parts.display ε

def obey (p : Prompt ε) : Command → Prompt ε × List Effect
  | .quit => ({ p with quitting := true }, [.quit])
  | .help => (p, [.print help])
  | .list => (p, [.print (Hint.ofBindings p.session.bindings p.width p.display)])
  | .reset =>
      ({ p with session := p.session.reset },
        [.print (p.display.render .hint (utf8 "session reset"))])
  | .clear => (p, [.clear])
  | .edit => (p, [.edit])
  | .unknown name =>
      (p, [.print (p.display.render .error
        (utf8 "Unknown command: " ++ name ++ utf8 " (try :help)"))])

def enterLine (p : Prompt ε) : Prompt ε × List Effect :=
  let line := Bytes.trim p.line
  if line.isEmpty then (p, [])
  else
    let history := (p.history.write line).history
    let p :=
      { p with
        editor := LineInput.setBytes p.editor [], found := [], history, place := history.size }
    let (p, effects) :=
      if Bytes.startsWith line (utf8 ":") then p.obey (Command.read line)
      else
        let (session, result) := p.session.enter line
        ({ p with session }, printed p.display result)
    (p, echo p.display line :: effects)

/-! ## Events -/

def quiet (p : Option (Prompt ε)) : Option (Prompt ε × List Effect) := p.map (·, [])

def quit (p : Prompt ε) : Option (Prompt ε × List Effect) :=
  some ({ p with quitting := true }, [.quit])

def press (p : Prompt ε) : Key → Option (Prompt ε × List Effect)
  | .interrupt => if p.text.isEmpty then p.quit else quiet p.clearLine
  | .endOfInput => if p.text.isEmpty then p.quit else p.stay
  | .enter =>
      if p.cycling && !p.found.isEmpty then quiet ({ p with cycling := false }.refresh true)
      else some p.enterLine
  | .tab => quiet (p.cycle .forward)
  | .backTab => quiet (p.cycle .backward)
  | .up => quiet p.older
  | .down => quiet p.newer
  | .escape =>
      quiet
        (if p.cycling then
          { p with
            cycling := false
            editor :=
              LineInput.moveTo (LineInput.setBytes p.editor p.untried.1) p.untried.2 }.refresh false
        else p.clearLine)
  | .typed cs => quiet (p.change true (LineInput.press · cs))
  | .edit command => quiet (p.change false (LineInput.apply · command))

def takeEdit (p : Prompt ε) : Edit.Result → Prompt ε × List Effect
  | .accepted source =>
      let (session, result) := p.session.reset.run source
      ({ p with session },
        .print (p.display.render .result (utf8 "✔ session replaced")) :: printed p.display result)
  | .cancelled => (p, [.print (p.display.render .hint (utf8 "🗴 edit cancelled"))])
  | .declined => (p, [.print (p.display.render .hint (utf8 "🗴 edit discarded"))])
  | .failed reason => (p, [.print (p.display.render .error (utf8 "🗴 error: " ++ reason))])

def handle (p : Prompt ε) : Event → Option (Prompt ε × List Effect)
  | .key k => p.press k
  | .resize width => { p with width }.stay
  | .edited result => some (p.takeEdit result)
  | .other => p.stay

/-! ## View -/

def candidateBar (p : Prompt ε) : Bytes :=
  Completion.bar p.found (if p.cycling then p.selected else none) p.width p.display

def statusLine (p : Prompt ε) : Option Bytes :=
  if p.place < p.history.size then
    some (p.display.render .hint
      (p.display.render .label (Bytes.ofNat (p.place + 1)) ++ utf8 "/" ++
        Bytes.ofNat p.history.size))
  else if Bytes.isBlank p.line then
    some (p.display.render .hint (utf8 "Enter a statement or expression, :help for commands"))
  else if p.cycling || 1 < p.found.length then some p.candidateBar
  else
    match p.word.slice? p.line with
    | none => none
    | some name =>
        let hint := Hint.ofBinding p.session.bindings name p.width p.display
        some (if hint.isEmpty then p.candidateBar else hint)

/-- What is shown below the input; nothing once the prompt is left. -/
def status (p : Prompt ε) : Option Bytes :=
  if p.quitting then some [] else p.statusLine.map (· ++ [Bytes.lineFeed])

end Prompt

end Scribe
