import RequestCompiler.Files.Path

/-!
# File trees

A file tree holds directories and text files by their segments below the root. Operations
follow a path from the root, one segment after the other, and fail as a file system does:
a step into nothing, a step into a file, a read of a directory.
-/

namespace RequestCompiler

/-- Why an operation on files failed. -/
inductive FileFault
  | missing
  | isDirectory
  | notDirectory
  | alreadyExists
  /-- The path itself is refused. -/
  | unusable
  | other (code : Text)
deriving DecidableEq, Repr

namespace FileFault

/-- The error code of the system. -/
def code : FileFault → Text
  | missing => "ENOENT"
  | isDirectory => "EISDIR"
  | notDirectory => "ENOTDIR"
  | alreadyExists => "EEXIST"
  | unusable => "ERR_INVALID_ARG_VALUE"
  | other c => c

/-- The system states this code. -/
def hasCode (fault : FileFault) (code : Text) : Bool := fault.code == code

end FileFault

/-- What stands at a place of a tree. -/
inductive FileNode
  | directory
  | file (content : Text)
deriving DecidableEq, Repr

/-- The places below the root, each by its segments. -/
structure FileTree where
  places : List (List Text × FileNode)
deriving DecidableEq, Repr

namespace FileTree

def empty : FileTree := ⟨[]⟩

/-- What stands at a place; the root is a directory. -/
def node? (t : FileTree) (at_ : List Text) : Option FileNode :=
  if at_.isEmpty then some .directory else (t.places.find? fun p => p.1 == at_).map (·.2)

/-- The tree with something put at a place. -/
def put (t : FileTree) (at_ : List Text) (n : FileNode) : FileTree :=
  ⟨(at_, n) :: t.places.filter fun p => p.1 != at_⟩

/-- Follows segments from a place. Every place that is stepped out of must be a directory;
the last one need not exist. -/
def follow (t : FileTree) (at_ : List Text) : List Text → Except FileFault (List Text)
  | [] => .ok at_
  | segment :: r =>
    match t.node? at_ with
    | none => .error .missing
    | some (.file _) => .error .notDirectory
    | some .directory =>
      if segment.isEmpty || segment == Path.here then follow t at_ r
      else if segment == Path.above then follow t at_.dropLast r
      else follow t (at_ ++ [segment]) r

/-- The place that an absolute path leads to. -/
def locate (t : FileTree) (path : Text) : Except FileFault (List Text) :=
  match path.splitAt Path.separator with
  | [] => .error .missing
  | _ :: segments => t.follow [] segments

/-- The content of a file. -/
def read (t : FileTree) (path : Text) : Except FileFault Text := do
  match t.node? (← t.locate path) with
  | none => .error .missing
  | some .directory => .error .isDirectory
  | some (.file content) => .ok content

/-- The path leads to something. -/
def contains (t : FileTree) (path : Text) : Bool :=
  match t.locate path with
  | .ok at_ => (t.node? at_).isSome
  | .error _ => false

/-- The path leads to a directory. -/
def isDirectory (t : FileTree) (path : Text) : Bool :=
  match t.locate path with
  | .ok at_ => t.node? at_ == some .directory
  | .error _ => false

/-- The tree with text added at the end of a file, which is made if it is missing. -/
def append (t : FileTree) (path : Text) (text : Text) : Except FileFault FileTree := do
  let at_ ← t.locate path
  match t.node? at_ with
  | none => .ok (t.put at_ (.file text.scrub))
  | some .directory => .error .isDirectory
  | some (.file content) => .ok (t.put at_ (.file (content ++ text.scrub)))

/-- The tree with the directories made that are missing on the way along segments. -/
def makeBelow (t : FileTree) (at_ : List Text) : List Text → Except FileFault FileTree
  | [] => .ok t
  | segment :: r =>
    let next := at_ ++ [segment]
    match t.node? next with
    | none => makeBelow (t.put next .directory) next r
    | some .directory => makeBelow t next r
    | some (.file _) => .error (if r.isEmpty then .alreadyExists else .notDirectory)

/-- The tree with a directory and all directories above it. -/
def makeDirectories (t : FileTree) (path : Text) : Except FileFault FileTree :=
  t.makeBelow [] (Path.segments true path)

/-- The tree with a file of the given content, below directories that are made as needed. -/
def write (t : FileTree) (path : Text) (content : Text) : Except FileFault FileTree := do
  let segments := Path.segments true path
  let below ← t.makeBelow [] segments.dropLast
  return below.put segments (.file content.scrub)

/-- The tree without a place and everything below it. -/
def remove (t : FileTree) (path : Text) : FileTree :=
  let segments := Path.segments true path
  ⟨t.places.filter fun p => !segments.isPrefixOf p.1⟩

end FileTree

end RequestCompiler
