import RequestCompiler.Failure
import RequestCompiler.Log.Store
import RequestCompiler.Settings

/-!
# Compiling with a log

A log service stamps and keeps the entries of compilations. The log of a home directory is one,
unless the settings turn it off. So is a log in memory, for a program that keeps no files.
-/

namespace RequestCompiler

/-- Where entries get their time from and go to. -/
structure LogService (m : Type → Type) where
  now : m Text
  record : LogEntry → m (Except Failure Unit)

/-- A log in memory, with the time and the identifier that are drawn next. -/
structure MemoryHost where
  log : MemoryLog
  timestamp : Text
  freshId : Text

namespace LogService

/-- The log in memory. -/
def inMemory : LogService (StateM MemoryHost) where
  now := return (← get).timestamp
  record e := do
    modify fun h => { h with log := h.log.append compileLogName (e.line h.freshId) }
    return .ok ()

variable {m : Type → Type} [Monad m]

/-- The log of a home directory. -/
def ofHome [Host m] (home : Text) : LogService m where
  now := Host.timestamp
  record e := do return (← LogFile.record home e).mapError .file

/-- The log of a home directory, if compilations are logged. -/
def open? [Host m] (home : Text) : m (Option (LogService m)) := do
  return if ← Settings.isLogEnabled then some (ofHome home) else none

end LogService

/-- Compiles a request, with a log or without. -/
def Registry.compileWith {m : Type → Type} [Monad m] (r : Registry) (log : Option (LogService m))
    (q : Request) : m (Except Failure Compilation) :=
  match log with
  | some l => r.compileLogged l.now l.record .invariant q
  | none => return (r.compile q).mapError .invariant

end RequestCompiler
