import RequestCompiler.Host
import RequestCompiler.Log.Entry

/-!
# Keeping the log

A log is kept in files below a home directory or in memory. Both answer a read with the
concatenation of the lines appended so far, each ended by a line feed, and with nothing for a
log that was never written to.
-/

namespace RequestCompiler

/-- The name of the compile log. -/
def compileLogName : Text := "compile.jsonl"

/-- Logs in memory: the lines of each, by name. -/
structure MemoryLog where
  logs : List (Text × List Text)
deriving DecidableEq, Repr

namespace MemoryLog

def empty : MemoryLog := ⟨[]⟩

/-- The lines of a log. -/
def lines (l : MemoryLog) (name : Text) : List Text :=
  ((l.logs.find? fun p => p.1 == name).map (·.2)).getD []

def append (l : MemoryLog) (name line : Text) : MemoryLog :=
  ⟨(name, l.lines name ++ [line]) :: l.logs.filter fun p => p.1 != name⟩

/-- The raw text of a log: its lines with line feeds between them and one at the end. -/
def readRaw (l : MemoryLog) (name : Text) : Text :=
  if (l.lines name).isEmpty then []
  else Text.join [unit '\n'] (l.lines name) ++ [unit '\n']

end MemoryLog

namespace LogFile

variable {m : Type → Type} [Monad m] [Host m]

/-- The directory of the logs of a home. -/
def directoryOf (home : Text) : Text := Path.join [home, "logs"]

/-- Appends a line to a log. -/
def append (home name line : Text) : m (Except FileFault Unit) := do
  match ← Host.makeDirectories (directoryOf home) with
  | .error e => return .error e
  | .ok () => Host.appendFile (Path.join [directoryOf home, name]) (line ++ [unit '\n'])

/-- The raw text of a log, empty if there is none. -/
def readRaw (home name : Text) : m (Except FileFault Text) := do
  match ← Host.readFile (Path.join [home, "logs", name]) with
  | .error fault => return if fault.hasCode "ENOENT" then .ok [] else .error fault
  | .ok text => return .ok text

/-- Appends an entry to the compile log, under a fresh identifier. -/
def record (home : Text) (e : LogEntry) : m (Except FileFault Unit) := do
  append home compileLogName (e.line (← Host.freshId))

end LogFile

end RequestCompiler
