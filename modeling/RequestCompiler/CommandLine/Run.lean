import RequestCompiler.CommandLine.Arguments
import RequestCompiler.CommandLine.Request
import RequestCompiler.Compile.Check
import RequestCompiler.Compile.Report
import RequestCompiler.Listing
import RequestCompiler.Log.Reader
import RequestCompiler.Log.Service
import RequestCompiler.Style

/-!
# Running a command

A command prints its answer and ends with code zero, or reports a failure on the error stream,
under its own name, and ends with code one.
-/

namespace RequestCompiler.CommandLine

/-- What a run of the program leaves behind. -/
structure Outcome where
  output : Text
  errors : Text
  code : Nat
deriving DecidableEq, Repr

namespace Outcome

/-- A text with a line end. -/
def line (t : Text) : Text := t ++ [unit '\n']

/-- Lines on the output. -/
def printed (lines : List Text) : Outcome := ⟨line (Text.join [unit '\n'] lines), [], 0⟩

/-- A value on the output. -/
def printedJson (j : Json) : Outcome := printed [j.pretty]

/-- Lines on the error stream. -/
def failed (lines : List Text) : Outcome := ⟨[], lines.flatMap line, 1⟩

end Outcome

namespace CommandName

/-- The words that name a command. -/
def title : CommandName → Text
  | compile => "compile"
  | bundlesList => "bundles list"
  | bundlesShow => "bundles show"
  | registryValidate => "registry validate"
  | check => "check"
  | codexModules => "codex modules"
  | codexModule => "codex module"
  | codexGet => "codex get"
  | codexSearch => "codex search"
  | codexTag => "codex tag"
  | codexType => "codex type"
  | codexStats => "codex stats"
  | log => "log"

end CommandName

/-- Puts the name of a command in front of the first line of a report. -/
def underName (name : CommandName) : List Text → List Text
  | [] => ["[comptext " ++ name.title ++ "] "]
  | first :: rest => ("[comptext " ++ name.title ++ "] " ++ first) :: rest

/-- The outcome of a command that fails. -/
def failure (paint : Style.Painter) (name : CommandName) (f : Failure) : Outcome :=
  .failed ((underName name f.lines).map (paint .failure))

/-- A command's answer: lines, or the failure. -/
def answer (paint : Style.Painter) (name : CommandName) : Except Failure Outcome → Outcome
  | .ok o => o
  | .error f => failure paint name f

/-- Values on the output, as JSON if that is asked for. -/
def show_ (i : Invocation) (j : Json) (lines : List Text) : Outcome :=
  if i.has jsonOption.name then .printedJson j else .printed lines

variable {m : Type → Type} [Monad m] [Host m]

/-- The paths that the options of a command state. -/
def pathsOf (i : Invocation) : PathOptions where
  home := i.value? homeOption.name
  registry := i.value? registryOption.name
  codex := i.value? codexOption.name
  directory := none

/-- Loads the registry. -/
def loadRegistry (paths : PathOptions) : m (Except Failure Registry) := do
  return (← Registry.load (← Settings.registryPath paths)).mapError Failure.ofLoadError

/-- Loads the codex. -/
def loadCodex (paths : PathOptions) : m (Except Failure Codex) := do
  return (← Codex.load (← Settings.codexPath paths)).mapError .codex

/-- The options of the request that a command is given. -/
def requestOptions (i : Invocation) : RequestOptions where
  audience := i.value? audienceOption.name
  mode := i.value? modeOption.name
  returnMode := i.value? returnModeOption.name
  deltas := i.values deltaOption.name

/-- Compiles a request and logs it. -/
def runCompile (i : Invocation) : ExceptT Failure m Outcome := do
  let q ← match request i.operands (requestOptions i) with
    | .ok q => pure q
    | .error errors => throw (.other (Text.join "; " (errors.map OptionError.message)))
  let r : Registry ← ExceptT.mk (loadRegistry (pathsOf i))
  let home : Text ← ExceptT.mk do return (← Settings.home (pathsOf i)).mapError .file
  let log : Option (LogService m) ← ExceptT.lift (LogService.open? home)
  let c : Compilation ← ExceptT.mk (r.compileWith log q)
  return show_ i c.payload [c.report]

/-- Lists the bundles. -/
def runBundlesList (i : Invocation) : ExceptT Failure m Outcome := do
  let r : Registry ← ExceptT.mk (loadRegistry (pathsOf i))
  return show_ i (.arr (r.bundles.map Bundle.json)) (Listing.bundles r.bundles)

/-- Shows a bundle. -/
def runBundlesShow (i : Invocation) : ExceptT Failure m Outcome := do
  let r : Registry ← ExceptT.mk (loadRegistry (pathsOf i))
  match r.bundle? (i.operand 0) with
  | some b => return show_ i b.json (Listing.bundle b)
  | none => throw (.other ("Unknown bundle: " ++ i.operand 0))

/-- Validates a registry file. -/
def runRegistryValidate (i : Invocation) : ExceptT Failure m Outcome := do
  let file := i.operands.head? <|> i.value? registryOption.name
  let r : Registry ← ExceptT.mk (loadRegistry { PathOptions.none with registry := file })
  return .printed [Listing.registry r]

/-- The report on a file that is refused. -/
def refusal (file : Text) (errors : List CheckError) : Text :=
  Text.join [unit '\n'] ((file ++ ": " ++ Issue.counted errors.length "error")
    :: errors.map fun e => "  - " ++ e.issue.line)

/-- Checks a file of directives. -/
def runCheck (i : Invocation) : ExceptT Failure m Outcome := do
  let file := i.operand 0
  let source : Text ← ExceptT.mk do return (← Host.readFile file).mapError .file
  let r : Registry ← ExceptT.mk (loadRegistry (pathsOf i))
  match r.check source with
  | .ok p =>
    return .printed
      ["ok: " ++ p.profile.id ++ " + " ++ Issue.counted p.bundles.length "bundle"]
  | .error errors => throw (.other (refusal file errors))

/-- Shows what a query finds in the codex. -/
def runOnCodex (i : Invocation) (query : Codex → Except Failure Outcome) :
    ExceptT Failure m Outcome := do
  let c : Codex ← ExceptT.mk (loadCodex (pathsOf i))
  ExceptT.mk (pure (query c))

/-- Entries on the output. -/
def showEntries (i : Invocation) (es : List Codex.Entry) : Outcome :=
  show_ i (.arr (es.map Codex.Entry.json)) (Listing.entries es)

/-- The number of search results that is asked for. -/
def maxResults (i : Invocation) : Binary64 :=
  match i.value? maxOption.name with
  | some t => Numeral.ofSetting t
  | none => Codex.defaultMaxResults

/-- The number of log entries that are shown unless the option says otherwise. -/
def defaultLimit : Text := "20"

/-- The number of log entries that is asked for, if it is a positive integer. -/
def entryLimit (t : Text) : Except Failure Nat :=
  match (Numeral.ofSetting t).toInt? with
  | some n =>
    if n < 1 then .error (.other ("--limit must be a positive integer, got " ++ t))
    else .ok n.toNat
  | none => .error (.other ("--limit must be a positive integer, got " ++ t))

/-- The note on lines that were passed over. -/
def skippedNote (s : LogStats) : List Text :=
  if 0 < s.parseErrors || s.partialTrailingLine then
    let torn : Text := if s.partialTrailingLine then ", partial last line" else ""
    ["(" ++ Text.ofNat s.parseErrors ++ " unreadable line(s) skipped" ++ torn ++ ")"]
  else []

/-- Shows the last entries of the log. -/
def runLog (i : Invocation) : ExceptT Failure m Outcome := do
  let limit ← ExceptT.mk (pure (entryLimit ((i.value? limitOption.name).getD defaultLimit)))
  let home : Text ← ExceptT.mk do return (← Settings.home (pathsOf i)).mapError .file
  let raw : Text ← ExceptT.mk do
    return (← LogFile.readRaw home compileLogName).mapError .file
  let content := LogContent.read raw
  let recent := content.events.drop (content.events.length - limit)
  let j : Json :=
    .object [("events", .arr (recent.map LogEvent.json)), ("stats", content.stats.json)]
  return show_ i j (Listing.events recent ++ skippedNote content.stats)

/-- Runs a command as far as it can fail. -/
def attempt (i : Invocation) : ExceptT Failure m Outcome :=
  match i.command with
  | .compile => runCompile i
  | .bundlesList => runBundlesList i
  | .bundlesShow => runBundlesShow i
  | .registryValidate => runRegistryValidate i
  | .check => runCheck i
  | .codexModules =>
    return show_ i (.arr (Codex.catalog.map Codex.CatalogModule.json))
      (Listing.modules Codex.catalog)
  | .codexModule => runOnCodex i fun c => .ok (showEntries i (c.byModule (i.operand 0)))
  | .codexGet => runOnCodex i fun c => do
    let e ← (c.entry (i.operand 0)).mapError Failure.ofLookupError
    return show_ i e.json (Listing.entry e)
  | .codexSearch => runOnCodex i fun c => do
    let es ← (c.search (i.operand 0) (maxResults i)).mapError Failure.query
    return showEntries i es
  | .codexTag => runOnCodex i fun c => .ok (showEntries i (c.byTag (i.operand 0)))
  | .codexType => runOnCodex i fun c => .ok (showEntries i (c.byType (i.operand 0)))
  | .codexStats => runOnCodex i fun c =>
    .ok (show_ i c.statistics.json (Listing.statistics c.statistics))
  | .log => runLog i

/-- Runs a command. -/
def execute (paint : Style.Painter) (i : Invocation) : m Outcome := do
  return answer paint i.command (← (attempt i).run)

/-- The version of the program. -/
def version : Text := "0.1.0"

/-- How the program is used. -/
def usage : Text :=
  "Usage: comptext <compile|bundles|registry|check|codex|log> [options] [arguments]"

/-- Runs the program with arguments. -/
def run (paint : Style.Painter) (arguments : List Text) : m Outcome :=
  match demand program arguments with
  | .run i => execute paint i
  | .version => return .printed [version]
  | .help true => return .printed [usage]
  | .help false => return .failed [usage]
  | .refuse e => return .failed [e.message]

end RequestCompiler.CommandLine
