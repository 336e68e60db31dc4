import Scribe.About
import Scribe.CommandLine.Console
import Scribe.CommandLine.Invocation
import Scribe.CommandLine.Setting
import Scribe.Document.Write

/-!
# Performing commands
-/

namespace Scribe

structure Surroundings (κ φ : Type) where
  hashing : Hashing κ
  files : FileSystem φ
  /-- A variable of the environment; one that is not set is empty. -/
  environment : Bytes → Bytes
  input : Except Failure Bytes
  whereabouts : Whereabouts
  /-- The path of the configuration script. -/
  scriptPath : Bytes
  /-- The settings file beside it, if there is one. -/
  settingsFile : Option Bytes
  cacheDirectory : Bytes

/-- How a command that does not fail ends. -/
inductive Performed where
  | done
  /-- An interactive prompt is to be started. -/
  | prompt (s : Session)

namespace Perform

variable {κ φ : Type} [BEq κ] [BEq φ]

def sources (s : Surroundings κ φ) (dirs names : List Bytes) : Job κ (List Source) := do
  let (result, events) := Source.read s.files dirs names s.input
  Job.record events
  Job.ofExcept result

def scriptEvent (source : Source) : LogEvent :=
  { level := .debug
    message := utf8 "run script"
    attrs := [(utf8 "file", .text source.name), (utf8 "bytes", .int source.text.length)] }

/-- Runs scripts one after the other in one interpreter, and gives the diagnostics of all. -/
def runAll (h : Hashing κ) (i : Interpreter) :
    List Source → Job κ (Interpreter × List Diagnostic × List Bytes)
  | [] => pure (i, [], [])
  | source :: rest => do
      Job.record [scriptEvent source]
      let (i, ds) ← Job.runScript h i source.text
      let (i, more, failed) ← runAll h i rest
      pure (i, ds ++ more, if ds.isEmpty then failed else source.name :: failed)

def scriptsFailed (ds : List Diagnostic) (failed : List Bytes) : Failure :=
  Fault.scriptFailed.wrap (.diagnostics ds)
    [(utf8 "lexical", .int (Diagnostic.count .lexical ds)),
      (utf8 "syntax", .int (Diagnostic.count .syntactic ds)),
      (utf8 "runtime", .int (Diagnostic.count .runtime ds)), (utf8 "files", .texts failed)]

/-- Runs scripts. Every script is run, also behind one with errors; with any error the command
fails at the end. -/
def run (s : Surroundings κ φ) (dirs : List Bytes) (o : RunOrder) : Job κ Unit := do
  let globals ← Job.ofExcept (Setting.values s.environment o.settings)
  let scripts ← sources s dirs o.scripts
  let (i, ds, failed) ← runAll s.hashing (Interpreter.ofOptions o.options globals) scripts
  if !o.dump.isEmpty then
    Job.write (i.bindings.toDocument.write o.dump o.indent)
  if !ds.isEmpty then
    Job.fail (scriptsFailed ds failed)

def shownScript (s : Surroundings κ φ) (dirs : List Bytes) (o : FormatOrder) : Job κ Bytes := do
  let found ← sources s dirs [o.script]
  pure ((found.head?.map Source.text).getD [])

def present (o : FormatOrder) (native : Sink → Except Bytes Unit × Sink) (d : Document) :
    Job κ Unit :=
  if o.format = utf8 "native" then
    Job.write fun sink =>
      match native sink with
      | (.ok (), sink) => (.ok (), sink)
      | (.error reason, sink) =>
          (.error (Fault.formatOutput.wrap (.plain reason) [(utf8 "format", .text o.format)]), sink)
  else Job.write (d.write o.format o.indent)

def report (o : FormatOrder) (ds : List Diagnostic) : Job κ Unit := do
  if !ds.isEmpty then
    modify fun c =>
      { c with
        errs := (Sink.writeEach (ds.map fun d => d.text ++ [Bytes.lineFeed]) c.errs).2 }
    Job.fail (Fault.scriptFailed.wrap (.diagnostics ds)
      [(utf8 "file", .text o.script), (utf8 "diagnostics", .int ds.length)])

def showTokens (s : Surroundings κ φ) (dirs : List Bytes) (o : FormatOrder) : Job κ Unit := do
  let r := scan (← shownScript s dirs o)
  present o (Token.writeAll r.tokens) (.list (r.tokens.map Token.toDocument))
  report o r.faults

def showTree (s : Surroundings κ φ) (dirs : List Bytes) (o : FormatOrder) : Job κ Unit := do
  let p := Program.ofSource (← shownScript s dirs o) defaultLimit
  present o (Stmt.writeAll p.stmts) (.list (Stmt.toDocuments p.stmts))
  report o p.diagnostics

/-- Writes the configuration script that sets the flags as they are now. -/
def init (s : Surroundings κ φ) (i : Invocation) (force : Bool) : Job κ Unit := do
  let file : List Attr := [(utf8 "file", .text s.scriptPath)]
  Job.record (Configuration.omittedEvents i.flags)
  let script := Configuration.script i.flags
  let ds := (Program.ofSource script defaultLimit).diagnostics
  if !ds.isEmpty then
    Job.fail (Fault.writeConfig.wrap (.diagnostics ds) file)
  if (← get).script.isSome && !force then
    Job.fail (Fault.writeConfig.wrap Fault.fileExists.failure file)
  modify ({ · with script := some script })
  Job.record
    [{ level := .debug, message := utf8 "initialized configuration file", attrs := file }]

/-- Runs the scripts that come before a prompt. -/
def preload (h : Hashing κ) : Session → List Source → Job κ Session
  | session, [] => pure session
  | session, source :: rest => fun c =>
      let (done, cache) := Interpreter.runCached h c.cache session.interpreter source.text
      let out := done.interpreter.out
      let session :=
        { session with interpreter := { done.interpreter with out := out.drained } }
      let c := { c with cache, notes := c.notes ++ out.contents }.record done.events
      if done.diagnostics.isEmpty then preload h session rest c
      else .error (.diagnostics done.diagnostics) c

def traceEvent (message : String) (attrs : List Attr) : LogEvent :=
  { level := .trace, message := utf8 message, attrs }

def prompt (s : Surroundings κ φ) (dirs : List Bytes) (o : RunOrder) : Job κ Session := do
  let globals ← Job.ofExcept (Setting.values s.environment o.settings)
  let scripts ← sources s dirs o.scripts
  Job.record
    [traceEvent "repl start"
      [(utf8 "cache_dir", .text s.cacheDirectory), (utf8 "preload", .int scripts.length)]]
  let session ← preload s.hashing (Session.start o.options globals) scripts
  Job.record
    [traceEvent "repl preload complete" [(utf8 "variables", .int session.bindings.size)]]
  pure session

def order (s : Surroundings κ φ) (dirs : List Bytes) (i : Invocation) : Job κ Performed :=
  match i.order with
  | .run o => do run s dirs o; pure .done
  | .prompt o => do pure (.prompt (← prompt s dirs o))
  | .tree o => do showTree s dirs o; pure .done
  | .tokens o => do showTokens s dirs o; pure .done
  | .init force => do init s i force; pure .done

def loggerEvent (i : Invocation) : LogEvent :=
  { level := .debug
    message := utf8 "logger initialized"
    attrs :=
      [(utf8 "level", .text i.log.level), (utf8 "format", .text i.log.format),
        (utf8 "time", .text i.time), (utf8 "caller", .boolean i.log.caller),
        (utf8 "pretty", .boolean i.log.pretty)] }

def invocation (s : Surroundings κ φ) (i : Invocation) : Job κ Performed := do
  modify (·.configure i.logSettings)
  Job.record [loggerEvent i]
  let dirs := includePath s.files.isDirectory i.path (s.environment About.pathVariable)
  Job.record [traceEvent "include path" [(utf8 "dirs", .texts dirs)]]
  order s dirs i

end Perform

end Scribe
