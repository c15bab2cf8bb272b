import RequestCompiler.Text.Lower

/-!
# Paths

Paths are texts with `/` between their segments. `resolve` makes an absolute path out of a
working directory and parts, `join` puts parts together; both remove empty segments and `.`,
and let `..` take away the segment before it. `extension` is the part of the last segment
from its last dot on.
-/

namespace RequestCompiler.Path

def separator : UInt16 := unit '/'

/-- The unit that ends a path for the system. No path may hold it. -/
def nul : UInt16 := 0

def isAbsolute (t : Text) : Bool := t.head? == some separator

/-- The segment of the directory itself. -/
def here : Text := "."

/-- The segment of the directory above. -/
def above : Text := ".."

/-- Adds a segment to the segments before it, the last one first. With `rooted` nothing is
above the start; otherwise a leading `..` is kept. -/
def push (rooted : Bool) (before : List Text) (segment : Text) : List Text :=
  if segment.isEmpty || segment == here then before
  else if segment == above then
    match before with
    | [] => if rooted then [] else [above]
    | last :: r => if last == above then above :: before else r
  else segment :: before

/-- The segments that are left of a path. -/
def segments (rooted : Bool) (t : Text) : List Text :=
  ((t.splitAt separator).foldl (push rooted) []).reverse

/-- The path without needless segments; a slash at its end stays. -/
def normalize (t : Text) : Text :=
  let rooted := isAbsolute t
  let body := Text.join [separator] (segments rooted t)
  let trailing := t.getLast? == some separator
  if body.isEmpty then
    if rooted then [separator] else if trailing then here ++ [separator] else here
  else
    (if rooted then [separator] else []) ++ body ++ (if trailing then [separator] else [])

/-- The parts that are not empty, one below the other. -/
def join (parts : List Text) : Text :=
  normalize (Text.join [separator] (parts.filter fun p => !p.isEmpty))

/-- The absolute path of parts, each taken relative to what the parts before it lead to from
the working directory. -/
def resolve (directory : Text) (parts : List Text) : Text :=
  let full := parts.foldl (fun base p =>
    if p.isEmpty then base else if isAbsolute p then p else base ++ separator :: p) directory
  separator :: Text.join [separator] (segments true full)

/-- The last segment, slashes at the end aside. -/
def lastSegment (t : Text) : Text :=
  (((t.splitAt separator).filter fun s => !s.isEmpty).getLast?).getD []

/-- The last segment from its last dot on; empty if there is no dot after its first unit, and
for `..`. -/
def extension (t : Text) : Text :=
  let name := lastSegment t
  let stem := (name.reverse.dropWhile (· != unit '.')).drop 1
  if stem.isEmpty || name == above then [] else name.drop stem.length

end RequestCompiler.Path
