import RequestCompiler.Codex
import RequestCompiler.Host
import RequestCompiler.Json.Reader

/-!
# Codex files

A codex is kept in a JSON file. Whatever is wrong with the file or its document is a codex error.
-/

namespace RequestCompiler.Codex

/-- The codex of a text that came from `path`. -/
def ofSource (path text : Text) : Except Error Codex :=
  match Json.read text with
  | none => .error (.malformed path)
  | some document => ofDocument document

/-- Loads the codex of a file. -/
def load {m : Type → Type} [Monad m] [Host m] (path : Text) : m (Except Error Codex) := do
  match ← Host.readFile path with
  | .error fault =>
    return .error (if fault.hasCode "ENOENT" then .fileMissing path else .unreadable path)
  | .ok text => return ofSource path text

end RequestCompiler.Codex
