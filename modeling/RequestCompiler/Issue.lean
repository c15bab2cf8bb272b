import RequestCompiler.Text

/-!
# Reported issues

What a check reports: a message, and where the defect is if that is known.
-/

namespace RequestCompiler

/-- The explanation that a reader or the system would give. It is not part of any message of
this library, and this text stands in its place. -/
def unexplained : Text := "<reason>"

/-- A defect as it is reported. -/
structure Issue where
  message : Text
  context : Option Text
deriving DecidableEq, Repr

namespace Issue

/-- The message, followed by the context in brackets. -/
def line (i : Issue) : Text :=
  match i.context with
  | some c => i.message ++ " [" ++ c ++ "]"
  | none => i.message

/-- A count with its noun, in the plural unless the count is one. -/
def counted (n : Nat) (noun : Text) : Text :=
  Text.ofNat n ++ " " ++ noun ++ (if n = 1 then "" else "s" : Text)

end Issue

end RequestCompiler
