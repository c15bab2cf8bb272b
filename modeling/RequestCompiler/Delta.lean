import RequestCompiler.Text.Blank
import RequestCompiler.Json.Quoted
import RequestCompiler.Issue

/-!
# Deltas

A delta is a `key=value` modifier that a request passes through to the bundle directive,
where it is the token `+key=value`. `parse` reads such a token, with or without its plus
sign; `format` writes it and refuses what could not be read again. `sorted` is the order in
which deltas are written: by key, then by value.
-/

namespace RequestCompiler

/-- A modifier of a bundle directive. -/
structure Delta where
  key : Text
  value : Text
deriving DecidableEq, Repr

/-- The units of ids and delta keys: ASCII letters and digits, `_`, `.` and `-`. -/
def isNameUnit (u : UInt16) : Bool :=
  (unit 'a' ≤ u && u ≤ unit 'z') || (unit 'A' ≤ u && u ≤ unit 'Z') || (unit '0' ≤ u && u ≤ unit '9')
    || u == unit '_' || u == unit '.' || u == unit '-'

/-- A non-empty run of name units. -/
def isName (t : Text) : Bool := !t.isEmpty && t.all isNameUnit

/-- A non-empty run without blanks. -/
def isSolid (t : Text) : Bool := !t.isEmpty && t.all fun u => !Text.isBlank u

/-- A defect of the calling program, never of a request's text: something was to be written
that has no place in directives. -/
inductive InvariantViolation
  | deltaKey (key : Text)
  | deltaValue (value : Text)
  | unknownBundle (id : Text)
deriving DecidableEq, Repr

namespace InvariantViolation

def message : InvariantViolation → Text
  | deltaKey key => "Invariant violation: delta key " ++ key.quote ++ " is not renderable"
  | deltaValue value => "Invariant violation: delta value " ++ value.quote ++ " is not renderable"
  | unknownBundle id => "Invariant violation: bundle " ++ id.quote ++ " is not in the registry"

end InvariantViolation

/-- Why a text is no delta. -/
inductive DeltaError
  | notKeyValue (source : Text)
  | badKey (key : Text)
  | badValue (key : Text)
deriving DecidableEq, Repr

namespace DeltaError

def message : DeltaError → Text
  | notKeyValue source => "Expected key=value, got " ++ source.quote
  | badKey key =>
    "Invalid delta key " ++ key.quote ++ ": use letters, digits, '_', '.', '-'"
  | badValue key => "Invalid delta value for " ++ key ++ ": must be non-empty without whitespace"

def issue (e : DeltaError) : Issue := ⟨e.message, none⟩

end DeltaError

namespace Delta

/-- Key and value can be written and read again. -/
def isRenderable (d : Delta) : Bool := isName d.key && isSolid d.value

/-- The token of a delta. -/
def token (d : Delta) : Text := unit '+' :: d.key ++ unit '=' :: d.value

/-- The token of a delta that can be read again. -/
def format (d : Delta) : Except InvariantViolation Text :=
  if !isName d.key then .error (.deltaKey d.key)
  else if !isSolid d.value then .error (.deltaValue d.value)
  else .ok d.token

/-- The text without one leading plus sign. -/
def stripPlus : Text → Text
  | [] => []
  | u :: r => if u = unit '+' then r else u :: r

/-- Reads `key=value`; blanks around it and one leading plus sign are ignored, and the first
equals sign ends the key. -/
def parse (source : Text) : Except DeltaError Delta :=
  let t := stripPlus source.trim
  let key := t.takeWhile (· != unit '=')
  match t.drop key.length with
  | [] => .error (.notKeyValue source)
  | _ :: value =>
    if key.isEmpty then .error (.notKeyValue source)
    else if !isName key then .error (.badKey key)
    else if !isSolid value then .error (.badValue key)
    else .ok ⟨key, value⟩

/-- Order by key, then by value, by code units. -/
def le (a b : Delta) : Bool :=
  if a.key = b.key then Text.le a.value b.value else Text.le a.key b.key

/-- The deltas in the order in which they are written. -/
def sorted (ds : List Delta) : List Delta := ds.mergeSort le

end Delta

end RequestCompiler
