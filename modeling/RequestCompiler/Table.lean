import RequestCompiler.Text

/-!
# Tables

A table keeps one value for each of its keys, in the order in which the keys first came. It is looked up as
the fields of an object are, but its order does not depend on what the keys are.
-/

namespace RequestCompiler

/-- Values by their keys, in the order in which the keys first came. -/
abbrev Table (α : Type) := List (Text × α)

namespace Table

/-- Sets the value of a key, in its place if the key is there. -/
def set {α : Type} (table : Table α) (key : Text) (value : α) : Table α :=
  match table with
  | [] => [(key, value)]
  | (k, v) :: r => if k = key then (key, value) :: r else (k, v) :: set r key value

/-- The table that a list of pairs sets one after another. -/
def ofList {α : Type} (pairs : List (Text × α)) : Table α :=
  pairs.foldl (fun table p => table.set p.1 p.2) []

end Table

end RequestCompiler
