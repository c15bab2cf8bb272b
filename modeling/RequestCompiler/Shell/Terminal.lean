import RequestCompiler.CommandLine.Run
import RequestCompiler.Shell.Session

/-!
# A session at a terminal

What the shell writes: a banner, a prompt, and after each line the reply and the next prompt. The
end of the session is a line end.
-/

namespace RequestCompiler.Shell

variable {m : Type → Type} [Monad m]

/-- A session at a terminal. -/
structure Terminal (m : Type → Type) where
  session : Session
  services : Services m
  paint : Style.Painter

namespace Terminal

/-- A line end and the prompt. -/
def prompt (t : Terminal m) : Text := unit '\n' :: t.session.prompt t.paint

/-- What is written when the session ends. -/
def farewell : Text := [unit '\n']

/-- What is written for a reply that is no exit. -/
def written (text : Text) : Text :=
  if text.isEmpty then [] else unit '\n' :: text ++ [unit '\n']

/-- The session after a line, unless the line ends it, and what is written. -/
def submit (t : Terminal m) (line : Text) : m (Option (Terminal m) × Text) := do
  let (reply, session) ← t.session.handle t.services t.paint line
  match reply with
  | .exit => return (none, farewell)
  | .output text =>
    let after := { t with session := session }
    return (some after, written text ++ after.prompt)

end Terminal

/-- The services of a host: files, the log of the home directory, and the settings of the
environment alone. -/
def hostServices [Host m] (log : Option (LogService m)) : Services m where
  loadRegistry := CommandLine.loadRegistry .none
  loadCodex := some (CommandLine.loadCodex .none)
  log := log

/-- Starts a session and says what is written first; without a registry there is no session. -/
def open_ [Host m] (paint : Style.Painter) : m (Except Failure (Terminal m × Text)) := do
  let path ← Settings.registryPath .none
  match Holder.start (← CommandLine.loadRegistry .none) with
  | .error e => return .error e
  | .ok holder =>
    match ← Settings.home .none with
    | .error fault => return .error (.file fault)
    | .ok home =>
      let terminal : Terminal m := ⟨.start holder, hostServices (← LogService.open? home), paint⟩
      return .ok (terminal, header paint holder.current path ++ terminal.prompt)

/-- What is written to the error stream when there is no session. -/
def openingReport (paint : Style.Painter) (f : Failure) : Text :=
  f.lines.flatMap fun l => paint .failure l ++ [unit '\n']

/-- A program without arguments at a terminal is a session, unless the settings forbid it. -/
def isWanted [Host m] (atTerminal : Bool) (arguments : List Text) : m Bool := do
  return atTerminal && arguments.isEmpty && !(← Settings.isShellDisabled)

end RequestCompiler.Shell
