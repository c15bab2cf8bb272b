import RequestCompiler.Delta

/-!
# Directives and programs

A program is a profile directive followed by bundle directives, one to a line. `render`
writes the canonical text of a profile id, bundle ids and deltas: every bundle line carries
every delta, in sorted order.
-/

namespace RequestCompiler

/-- One `use:` line: the id it names, its deltas, and its line number from 1. -/
structure Directive where
  id : Text
  deltas : List Delta
  line : Nat
deriving DecidableEq, Repr

/-- A parsed program. -/
structure Program where
  profile : Directive
  bundles : List Directive
deriving DecidableEq, Repr

namespace Directive

/-- What every directive starts with. -/
def lead : Text := "use:"

/-- What the id of every profile starts with. -/
def profileLead : Text := "profile."

/-- The id names a profile. -/
def isProfileId (id : Text) : Bool := profileLead.isPrefixOf id

end Directive

namespace Program

/-- The delta tokens of a bundle line, in sorted order and separated by spaces. -/
def suffix (deltas : List Delta) : Except InvariantViolation Text :=
  ((Delta.sorted deltas).mapM Delta.format).map (Text.join " ")

/-- A bundle line. -/
def bundleLine (tail : Text) (id : Text) : Text :=
  if tail.isEmpty then Directive.lead ++ id else Directive.lead ++ id ++ unit ' ' :: tail

/-- The canonical text: the profile line, then a line for each bundle. -/
def render (profileId : Text) (bundleIds : List Text) (deltas : List Delta) :
    Except InvariantViolation Text :=
  (suffix deltas).map fun tail =>
    Text.join [unit '\n'] ((Directive.lead ++ profileId) :: bundleIds.map (bundleLine tail))

end Program

end RequestCompiler
