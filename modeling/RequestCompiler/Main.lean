import RequestCompiler.Host.System
import RequestCompiler.Shell.Terminal

/-!
# The program

With arguments the program runs one command. Without, at a terminal, it answers lines until the
session or the input ends.
-/

namespace RequestCompiler

/-- A line without its end. -/
def lineBody (line : String) : Text :=
  let t := Text.ofString line
  if t.getLast? == some (unit '\n') then t.dropLast else t

/-- Answers the lines of the input. -/
partial def Shell.converse (input out : IO.FS.Stream) (t : Shell.Terminal IO) : IO Unit := do
  let line ← input.getLine
  if line.isEmpty then out.write (Host.bytes Shell.Terminal.farewell)
  else
    let (next, written) ← t.submit (lineBody line)
    out.write (Host.bytes written)
    out.flush
    match next with
    | some t' => Shell.converse input out t'
    | none => return ()

end RequestCompiler

open RequestCompiler in
/-- Runs the program; the result is its exit code. -/
def main (arguments : List String) : IO UInt32 := do
  let input ← IO.getStdin
  let out ← IO.getStdout
  let err ← IO.getStderr
  let colors ← out.isTty
  let words := arguments.map Text.ofString
  if ← Shell.isWanted (colors && (← input.isTty)) words then
    match ← Shell.open_ colors with
    | .error f =>
      err.write (Host.bytes (Shell.openingReport colors f))
      return 1
    | .ok (terminal, opening) =>
      out.write (Host.bytes opening)
      out.flush
      Shell.converse input out terminal
      return 0
  else
    let outcome ← CommandLine.run colors words
    out.write (Host.bytes outcome.output)
    err.write (Host.bytes outcome.errors)
    return outcome.code.toUInt32
