import RequestCompiler.Json

/-!
# YAML nodes

A node is a scalar, a collection or an alias, where scalars and collections can have an anchor.
A scalar keeps its text and the way it was written beside the value that it stands for.
-/

namespace RequestCompiler.Yaml

/-- The ways to write a scalar. -/
inductive ScalarStyle
  | plain
  | singleQuoted
  | doubleQuoted
  | block
deriving DecidableEq, Repr

/-- A node of a document. -/
inductive Node
  | scalar (anchor : Option Text) (style : ScalarStyle) (text : Text) (value : Json)
  | aliasOf (name : Text)
  | sequence (anchor : Option Text) (items : List Node)
  /-- A mapping; a key may stand without a value. -/
  | mapping (anchor : Option Text) (pairs : List (Node × Option Node))

namespace Node

/-- Two scalars with the same value. Numbers are the same if they are equal as numbers. -/
def sameScalar : Node → Node → Bool
  | scalar _ _ _ (.num x), scalar _ _ _ (.num y) => x.same y
  | scalar _ _ _ (.str s), scalar _ _ _ (.str t) => s == t
  | scalar _ _ _ (.bool b), scalar _ _ _ (.bool c) => b == c
  | scalar _ _ _ .null, scalar _ _ _ .null => true
  | _, _ => false

end Node

end RequestCompiler.Yaml
