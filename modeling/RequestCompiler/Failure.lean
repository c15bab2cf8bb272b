import RequestCompiler.Codex.Source
import RequestCompiler.Delta
import RequestCompiler.Registry.Source

/-!
# Failures

Everything that can keep a command or the shell from an answer, with the lines that it is
reported in.
-/

namespace RequestCompiler

/-- Why there is no answer. -/
inductive Failure
  | configuration (error : ConfigurationError)
  | copy (fault : Expansion.CopyFault)
  | source (error : Registry.SourceError)
  | invariant (error : InvariantViolation)
  | codex (error : Codex.Error)
  | query (error : Codex.QueryError)
  | file (fault : FileFault)
  /-- A failure that only has a message. -/
  | other (message : Text)
deriving DecidableEq, Repr

namespace Failure

def ofDocumentError : Registry.DocumentError → Failure
  | .configuration e => configuration e
  | .copy fault => copy fault

def ofLoadError : Registry.LoadError → Failure
  | .source e => source e
  | .document e => ofDocumentError e

def ofLookupError : Codex.LookupError → Failure
  | .codex e => codex e
  | .query e => query e

def message : Failure → Text
  | configuration e => e.message
  | copy _ => unexplained
  | source e => e.message
  | invariant e => e.message
  | codex e => e.message
  | query e => e.message
  | file fault => fault.code ++ ": " ++ unexplained
  | other t => t

/-- The lines of the report: the issues of a registry one by one below their count, and the
message of any other failure. -/
def lines : Failure → List Text
  | configuration e => e.header :: e.issues.map fun i => "  - " ++ i.line
  | f => [f.message]

end Failure

end RequestCompiler
