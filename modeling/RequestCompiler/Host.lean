import RequestCompiler.Files.Tree

/-!
# The host

What the program needs from its surroundings: text files, variables, the working directory,
the time and fresh identifiers. Commands are written over `Host`, so that they run on a real
system and, with the same code, on `World`, a value that holds all of these. On both a path is
encoded as the system takes it, and no path may hold a NUL.
-/

namespace RequestCompiler

/-- The surroundings of the program, as effects of `m`. Paths may be relative to the working
directory. -/
class Host (m : Type → Type) where
  /-- The content of a text file. -/
  readFile : Text → m (Except FileFault Text)
  /-- Adds text at the end of a file, which is made if it is missing. -/
  appendFile : Text → Text → m (Except FileFault Unit)
  /-- Makes a directory and the directories above it. -/
  makeDirectories : Text → m (Except FileFault Unit)
  /-- The path leads to something. -/
  pathExists : Text → m Bool
  /-- The value of an environment variable. -/
  variableValue? : Text → m (Option Text)
  /-- The working directory. -/
  directory : m Text
  /-- The home directory of the user. -/
  userHome : m Text
  /-- The time, as log entries state it. -/
  timestamp : m Text
  /-- An identifier for a log line. -/
  freshId : m Text

/-- Surroundings as a value. The time stands still and every fresh identifier is the same. -/
structure World where
  files : FileTree
  environment : List (Text × Text)
  directory : Text
  timestamp : Text
  freshId : Text

namespace World

def variableValue? (w : World) (name : Text) : Option Text :=
  (w.environment.find? fun p => p.1 == name).map (·.2)

/-- A path as it leads from the root. A relative path starts at the working directory. -/
def rooted (w : World) (path : Text) : Text :=
  if Path.isAbsolute path then path else w.directory ++ Path.separator :: path

/-- The place of a path, which is encoded on its way to the files: a lone surrogate is lost, and a
NUL refused. The empty path leads nowhere. -/
def withPath {α : Type} (w : World) (path : Text) (f : Text → Except FileFault α) :
    Except FileFault α :=
  if path.isEmpty then .error .missing
  else if Path.nul ∈ path then .error .unusable
  else f (w.rooted path.scrub)

/-- An operation that changes the files, unless it fails. -/
def update (change : World → Except FileFault FileTree) : StateM World (Except FileFault Unit) :=
  fun w =>
    match change w with
    | .ok files => (.ok (), { w with files := files })
    | .error e => (.error e, w)

instance : Host (StateM World) where
  readFile path := return (← get).withPath path (← get).files.read
  appendFile path text := update fun w => w.withPath path fun p => w.files.append p text
  makeDirectories path := update fun w => w.withPath path w.files.makeDirectories
  pathExists path := return ((← get).withPath path fun p => .ok p).toOption.any (← get).files.contains
  variableValue? name := return (← get).variableValue? name
  directory := return (← get).directory
  userHome := return ((← get).variableValue? "HOME").getD []
  timestamp := return (← get).timestamp
  freshId := return (← get).freshId

end World

end RequestCompiler
