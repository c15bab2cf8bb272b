import RequestCompiler.Compile.Report
import RequestCompiler.Holder
import RequestCompiler.Listing
import RequestCompiler.Log.Service
import RequestCompiler.Shell.Screen

/-!
# Shell sessions

A session answers one line at a time. A line that starts with a slash is a command; every other
line that is not blank is compiled with the settings of the session against its current registry.
Only a valid `/audience`, `/mode` or `/return` changes a setting, and no failure ends a session.
-/

namespace RequestCompiler.Shell

/-- What requests are compiled with. -/
structure Preferences where
  audience : Audience
  mode : Mode
  returnMode : ReturnMode
deriving DecidableEq, Repr

namespace Preferences

/-- What a session starts with. -/
def initial : Preferences := ⟨.dev, .bundleOnly, .dslPlusConfidence⟩

/-- A text as a request. -/
def request (p : Preferences) (t : Text) : Request :=
  ⟨t, some p.audience, some p.mode, some p.returnMode, none⟩

end Preferences

/-- What a session can ask of its surroundings. -/
structure Services (m : Type → Type) where
  loadRegistry : m (Except Failure Registry)
  /-- Without it there is no codex. -/
  loadCodex : Option (m (Except Failure Codex))
  log : Option (LogService m)

/-- The state of a session. The codex is kept once it has been loaded. -/
structure Session where
  preferences : Preferences
  holder : Holder
  codex : Option Codex

namespace Session

/-- A session that starts with a registry. -/
def start (h : Holder) : Session := ⟨.initial, h, none⟩

def prompt (s : Session) (paint : Style.Painter) : Text := Shell.prompt paint s.preferences.audience

end Session

/-- The answer to a line. -/
inductive Reply
  | output (text : Text)
  | exit
deriving DecidableEq, Repr

namespace Reply

/-- Lines with a margin. -/
def ofLines (lines : List Text) : Reply :=
  output (Text.join [unit '\n'] (lines.map fun l => "  " ++ l))

/-- Lines of a failure. -/
def ofFailure (paint : Style.Painter) (lines : List Text) : Reply :=
  ofLines (lines.map (paint .failure))

end Reply

/-- What a line asks for. -/
inductive Command
  | nothing
  | compile (text : Text)
  | help
  | exit
  | settings
  /-- A setting with its new value, which is missing if the text names none. -/
  | audience (value : Option Audience)
  | mode (value : Option Mode)
  | returnMode (value : Option ReturnMode)
  | bundles
  | reload
  | codex (query : Text)
  | unknown (line : Text)

namespace Command

/-- The command of a word and its argument; `line` is the whole line. -/
def ofWords (line word argument : Text) : Command :=
  if word = Text.ofString "/help" then help
  else if word = Text.ofString "/exit" ∨ word = Text.ofString "/quit" then exit
  else if word = Text.ofString "/settings" then settings
  else if word = Text.ofString "/audience" then audience (Audience.ofText? argument)
  else if word = Text.ofString "/mode" then mode (Mode.ofText? argument)
  else if word = Text.ofString "/return" then returnMode (ReturnMode.ofText? argument)
  else if word = Text.ofString "/bundles" then bundles
  else if word = Text.ofString "/reload" then reload
  else if word = Text.ofString "/codex" then codex argument
  else unknown line

/-- The command of a line. -/
def ofLine (line : Text) : Command :=
  let input := line.trim
  if input.isEmpty then nothing
  else if input.head? != some (unit '/') then compile input
  else
    match input.words with
    | [] => unknown input
    | word :: arguments => ofWords input word (Text.join " " arguments)

/-- The preferences after a command. -/
def prefer (c : Command) (p : Preferences) : Preferences :=
  match c with
  | audience (some a) => { p with audience := a }
  | mode (some m) => { p with mode := m }
  | returnMode (some r) => { p with returnMode := r }
  | _ => p

end Command

/-- The style that stands for an outcome. -/
def stateStyle : CompileState → Style
  | .render => .success
  | .clarify => .caution

/-- The reply that shows a result. -/
def compilationReply (paint : Style.Painter) (c : Compilation) : Reply :=
  .ofLines (paint (stateStyle c.state) ("[" ++ c.state.name ++ "]")
    :: Text.splitAt (unit '\n') c.report)

/-- The reply that shows the settings. -/
def preferencesReply (paint : Style.Painter) (p : Preferences) : Reply :=
  .ofLines [
    paint .muted "audience " ++ paint .body p.audience.name,
    paint .muted "mode     " ++ paint .body p.mode.name,
    paint .muted "return   " ++ paint .body p.returnMode.name]

/-- The reply to a reload. -/
def reloadReply (paint : Style.Painter) : Except Failure Registry → Reply
  | .ok r =>
    .ofLines [paint .success "registry reloaded: " ++ paint .body
      (Text.ofNat r.bundles.length ++ " bundles, hash " ++ r.hash.take shortHash)]
  | .error e => .ofFailure paint (e.lines ++ [Text.ofString "previous registry still in use"])

/-- The reply to an unknown command. -/
def unknownReply (paint : Style.Painter) (line : Text) : Reply :=
  .ofLines [paint .failure "unknown command: " ++ paint .muted line,
    paint .dim "type '/help' for available commands"]

variable {m : Type → Type} [Monad m]

/-- The codex of a session, loaded if this has not succeeded before; `none` if there is no
codex at all. -/
def Session.withCodex (services : Services m) (s : Session) :
    m (Option (Except Failure Codex) × Session) :=
  match services.loadCodex, s.codex with
  | none, _ => return (none, s)
  | some _, some c => return (some (.ok c), s)
  | some load, none => do
    match ← load with
    | .ok c => return (some (.ok c), { s with codex := some c })
    | .error e => return (some (.error e), s)

/-- The reply to a search. -/
def searchReply (paint : Style.Painter) (query : Text) : Option (Except Failure Codex) → Reply
  | none => .ofFailure paint ["no codex configured"]
  | some (.error e) => .ofFailure paint e.lines
  | some (.ok c) =>
    match c.search query Codex.defaultMaxResults with
    | .ok es => .ofLines (Listing.entries es)
    | .error e => .ofFailure paint (Failure.query e).lines

/-- Carries out a command. -/
def Session.execute (services : Services m) (paint : Style.Painter) (s : Session) (c : Command) :
    m (Reply × Session) := do
  let s := { s with preferences := c.prefer s.preferences }
  match c with
  | .nothing => return (.ofLines [], s)
  | .compile text =>
    match ← s.holder.current.compileWith services.log (s.preferences.request text) with
    | .ok result => return (compilationReply paint result, s)
    | .error e => return (.ofFailure paint e.lines, s)
  | .help => return (.output (help paint), s)
  | .exit => return (.exit, s)
  | .audience none => return (.ofFailure paint ["usage: /audience dev|audit|exec"], s)
  | .mode none =>
    return (.ofFailure paint ["usage: /mode bundle_only|allow_inline_fallback"], s)
  | .returnMode none =>
    return (.ofFailure paint
      ["usage: /return dsl_only|dsl_plus_confidence|dsl_plus_explanation"], s)
  | .settings | .audience (some _) | .mode (some _) | .returnMode (some _) =>
    return (preferencesReply paint s.preferences, s)
  | .bundles => return (.ofLines (Listing.bundles s.holder.current.bundles), s)
  | .reload =>
    let (holder, outcome) := s.holder.reload (← services.loadRegistry)
    return (reloadReply paint outcome, { s with holder := holder })
  | .codex query =>
    let (codex, s) ← s.withCodex services
    return (searchReply paint query codex, s)
  | .unknown line => return (unknownReply paint line, s)

/-- Answers a line. -/
def Session.handle (services : Services m) (paint : Style.Painter) (s : Session) (line : Text) :
    m (Reply × Session) :=
  s.execute services paint (Command.ofLine line)

end RequestCompiler.Shell
