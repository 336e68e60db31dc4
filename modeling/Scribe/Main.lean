import Scribe.CommandLine
import Scribe.Prompt

/-!
# The program

Reads what the command line needs from the system, does what it asks for, and writes the results.
-/

namespace Scribe

namespace Shell

def readFile? (path : String) : IO (Option Bytes) := do
  try
    let data ← IO.FS.readBinFile path
    pure (some data.toList)
  catch _ => pure none

def stringOf (text : Bytes) : String := (Bytes.toString? text).getD ""

partial def readAll (stream : IO.FS.Stream) (done : Bytes := []) : IO Bytes := do
  let piece ← stream.read 65536
  if piece.isEmpty then pure done else readAll stream (done ++ piece.toList)

def environmentEntries : IO (List (Bytes × Bytes)) := do
  let text ← readFile? "/proc/self/environ"
  pure ((Bytes.splitOn 0 (text.getD [])).filterMap (Bytes.cut? 0x3D))

/-- The number behind a word at the start of a line. -/
def numberAfter (word : String) (text : Bytes) : Int :=
  let found := (Bytes.splitOn Bytes.lineFeed text).findSome? fun line =>
    Bytes.dropStart? line (utf8 word)
  (found.map fun digits => (Decimal.digitsValue 10 (digits.takeWhile Bytes.isDigit) : Int)).getD 0

/-- The present time: when the system was started, and for how long it has been up. -/
def now : IO (Option Instant) := do
  match ← readFile? "/proc/stat", ← readFile? "/proc/uptime" with
  | some stat, some uptime =>
      let start := numberAfter "btime " stat
      let (seconds, rest) := (Bytes.cut? 0x2E uptime).getD (uptime, [])
      let hundredths := Decimal.digitsValue 10 (rest.takeWhile Bytes.isDigit)
      pure (some (.ofUnix (start + Decimal.digitsValue 10 seconds) (hundredths * 10000000)))
  | _, _ => pure none

def look (path : Bytes) : IO (Option Found) := do
  if path.isEmpty then pure none
  else
    try
      match (← ((← IO.currentDir) / stringOf path).metadata).type with
      | .dir => pure (some .directory)
      | _ => pure (some .file)
    catch _ => pure none

/-- The key of a file is its path without links. -/
def resolve (path : Bytes) : IO (Except Failure Bytes) := do
  try
    pure (.ok (utf8 (← IO.FS.realPath ((← IO.currentDir) / stringOf path)).toString))
  catch e => pure (.error (.plain (utf8 (toString e))))

def fileSystem (paths : List Bytes) : IO (FileSystem Bytes) := do
  let absent (path : Bytes) : Failure := .plain (utf8 "open " ++ path ++ utf8 ": cannot be read")
  let known ← paths.mapM fun path => do
    let text ← readFile? (stringOf path)
    pure (path, ← look path, ← resolve path, text)
  pure
    { look := fun path => (known.lookup path).bind (·.1)
      resolve := fun path => ((known.lookup path).map (·.2.1)).getD (.error (absent path))
      read := fun path => (((known.lookup path).bind (·.2.2)).map .ok).getD (.error (absent path)) }

def perform (effects : List Prompt.Effect) : IO Unit := do
  let stdout ← IO.getStdout
  for effect in effects do
    match effect with
    | .print text => stdout.write ⟨(text ++ [Bytes.lineFeed]).toArray⟩
    | .clear => stdout.write ⟨(utf8 "\x1b[2J\x1b[H").toArray⟩
    | .edit => stdout.write ⟨(utf8 "no editor\n").toArray⟩
    | .quit => pure ()
  stdout.flush

partial def converse (stdin : IO.FS.Stream) (p : Prompt) : IO Prompt := do
  let line ← stdin.getLine
  if line.isEmpty then pure p
  else
    match p.press (.typed (line.toList.filter (· ≠ '\n'))) with
    | none => pure p
    | some (q, _) =>
        match q.press .enter with
        | none => pure q
        | some (q, effects) =>
            perform effects
            if q.quitting then pure q else converse stdin q

/-- The directory of the program among the user's directories of one kind. -/
def userDirectory (environment : Bytes → Bytes) (name fallback : String) : Bytes :=
  let dir := environment (utf8 name)
  Path.join (if dir.isEmpty then Path.join (environment (utf8 "HOME")) (utf8 fallback) else dir)
    (utf8 About.name)

def loadHistory (path : Bytes) : IO History := do
  pure (History.load { archive := .file (← readFile? (stringOf path)) }).1

def saveHistory (path : Bytes) (h : History) : IO Unit :=
  match h.archive with
  | .file (some content) => IO.FS.writeBinFile (stringOf path) ⟨content.toArray⟩
  | _ => pure ()

end Shell

end Scribe

open Scribe Scribe.Shell in
def main (arguments : List String) : IO UInt32 := do
  let listed ← environmentEntries
  let environment (name : Bytes) : Bytes := (listed.lookup name).getD []
  let configDirectory := userDirectory environment "XDG_CONFIG_HOME" ".config"
  let cacheDirectory := userDirectory environment "XDG_CACHE_HOME" ".cache"
  IO.FS.createDirAll (stringOf configDirectory)
  IO.FS.createDirAll (stringOf cacheDirectory)
  let scriptPath := Path.join configDirectory (utf8 "config.wz")
  let script ← readFile? (stringOf scriptPath)
  let blind : Surroundings UInt64 Bytes :=
    { hashing := .folded
      files := .empty
      environment
      input := .ok []
      whereabouts :=
        { workingDirectory := utf8 (← IO.currentDir).toString, home := environment (utf8 "HOME") }
      scriptPath
      settingsFile := ← readFile? (stringOf scriptPath ++ ".json")
      cacheDirectory }
  let console : Console UInt64 := { logger := .ofSettings {}, now := ← now, script }
  let words := arguments.map utf8
  let plan := CommandLine.plan? blind words console
  let names := (plan.map Invocation.scripts).getD []
  let listedDirs := Bytes.splitOn 0x3A (environment About.pathVariable)
  let dirs := (plan.map Invocation.path).getD [] ++ listedDirs
  let files ← fileSystem (dirs ++ names.flatMap (Source.candidates dirs)).eraseDups
  let stdin ← IO.getStdin
  let input ← if names.contains Source.standardInput then readAll stdin else pure []
  let (ending, console) := CommandLine.run { blind with files, input := .ok input } words console
  (← IO.getStdout).write ⟨(console.notes ++ console.out.contents).toArray⟩
  let stderr ← IO.getStderr
  stderr.write ⟨(console.log ++ console.errs.contents).toArray⟩
  match console.script with
  | some text => if console.script ≠ script then
      IO.FS.writeBinFile (stringOf scriptPath) ⟨text.toArray⟩
  | none => pure ()
  let failed (e : Failure) : IO UInt32 := do
    stderr.write ⟨(console.logger.write (CommandLine.failureEvent e) console.now).toArray⟩
    pure 1
  match ending with
  | .done | .inquiry _ => pure 0
  | .refused u => failed (.plain u.message)
  | .failed e => failed e
  | .prompt session => do
      let historyPath := Path.join cacheDirectory (utf8 "history.utf8")
      let p ← converse stdin (Prompt.start session (← loadHistory historyPath))
      saveHistory historyPath p.history
      pure 0
