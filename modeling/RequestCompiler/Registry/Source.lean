import RequestCompiler.Host
import RequestCompiler.Json.Reader
import RequestCompiler.Registry.Validation
import RequestCompiler.Yaml.Node.Reader

/-!
# Registry files

A registry is kept in a YAML or a JSON file, told apart by the name. A file that cannot be read or
parsed is a `SourceError`; one whose document is invalid is a `DocumentError`. A load that
succeeds yields a complete registry.
-/

namespace RequestCompiler.Registry

/-- How a registry is written down. -/
inductive Format
  | yaml
  | json
deriving DecidableEq, Repr

namespace Format

def name : Format → Text
  | yaml => "yaml"
  | json => "json"

/-- The name in messages. -/
def title : Format → Text
  | yaml => "YAML"
  | json => "JSON"

/-- Files whose name ends in `.json`, in any case of letters, are JSON and all others YAML. -/
def ofPath (path : Text) : Format :=
  if (Path.extension path).lower = Text.ofString ".json" then json else yaml

/-- The value that a text stands for. -/
def read : Format → Text → Option Json
  | yaml => Yaml.read
  | json => Json.read

end Format

/-- Why there is no document. -/
inductive SourceError
  | missing (path : Text)
  | unreadable (path : Text)
  | malformed (path : Text) (format : Format)
deriving DecidableEq, Repr

namespace SourceError

def message : SourceError → Text
  | missing path => "Registry file not found: " ++ path
  | unreadable path => "Cannot read registry " ++ path ++ ": " ++ unexplained
  | malformed path format =>
    "Cannot parse registry " ++ path ++ " as " ++ format.title ++ ": " ++ unexplained

end SourceError

/-- The document of a text that came from `path`. -/
def parseSource (format : Format) (path text : Text) : Except SourceError Json :=
  match format.read text with
  | some document => .ok document
  | none => .error (.malformed path format)

/-- Why a registry could not be loaded. -/
inductive LoadError
  | source (error : SourceError)
  | document (error : DocumentError)
deriving DecidableEq, Repr

/-- The registry that a text declares. -/
def ofSource (format : Format) (path text : Text) : Except LoadError Registry :=
  match parseSource format path text with
  | .error e => .error (.source e)
  | .ok document => (ofDocument document).mapError .document

/-- Loads the registry of a file. -/
def load {m : Type → Type} [Monad m] [Host m] (path : Text) : m (Except LoadError Registry) := do
  match ← Host.readFile path with
  | .error fault =>
    return .error (.source (if fault.hasCode "ENOENT" then .missing path else .unreadable path))
  | .ok text => return ofSource (.ofPath path) path text

end RequestCompiler.Registry
