import RequestCompiler.Host
import RequestCompiler.Text.Lower

/-!
# Settings

Where the registry, the codex and the home directory are: an option decides, then an
environment variable, then the default. An empty text counts as absent. Paths are absolute
once resolved; a relative one starts at the working directory.
-/

namespace RequestCompiler

/-- The paths that options state. -/
structure PathOptions where
  home : Option Text
  registry : Option Text
  codex : Option Text
  /-- The directory from which the files are looked up, in place of the working directory. -/
  directory : Option Text
deriving DecidableEq, Repr

namespace PathOptions

def none : PathOptions := ⟨.none, .none, .none, .none⟩

end PathOptions

namespace Settings

/-- A text that is there and not empty. -/
def solid? (t : Option Text) : Option Text := t.filter fun u => !u.isEmpty

/-- Where the registry is by default. -/
def defaultRegistry : Text := "bundles/bundles.yaml"

/-- Where the codex is by default. -/
def defaultCodex : Text := "data/codex.json"

/-- The name of the home directory by default. -/
def defaultHome : Text := ".comptext"

/-- The values that turn the compile log off. -/
def offValues : List Text := ["0", "false", "off"]

variable {m : Type → Type} [Monad m] [Host m]

/-- An environment variable that is not empty. -/
def variableValue? (name : Text) : m (Option Text) := do return solid? (← Host.variableValue? name)

/-- A file's path: the option, the variable or the default. -/
def filePath (directory option : Option Text) (variableName default : Text) : m Text := do
  let path := (solid? option).getD ((← variableValue? variableName).getD default)
  return Path.resolve (← Host.directory) [directory.getD [], path]

def registryPath (o : PathOptions) : m Text :=
  filePath o.directory o.registry "COMPTEXT_REGISTRY_PATH" defaultRegistry

def codexPath (o : PathOptions) : m Text :=
  filePath o.directory o.codex "COMPTEXT_CODEX_PATH" defaultCodex

/-- The path of the home directory, which is made if nothing is there. -/
def home (o : PathOptions) : m (Except FileFault Text) := do
  let default := Path.join [← Host.userHome, defaultHome]
  let stated := (solid? o.home).getD ((← variableValue? "COMPTEXT_HOME").getD default)
  let path := Path.resolve (← Host.directory) [stated]
  if ← Host.pathExists path then return .ok path
  else
    match ← Host.makeDirectories path with
    | .ok () => return .ok path
    | .error fault => return .error fault

/-- Compilations are logged, unless a variable says otherwise. -/
def isLogEnabled : m Bool := do
  return ((← variableValue? "COMPTEXT_LOG").all fun t => !offValues.contains t.lower)

/-- The interactive shell is not wanted. -/
def isShellDisabled : m Bool := do return (← variableValue? "COMPTEXT_NO_TUI").isSome

end Settings

end RequestCompiler
