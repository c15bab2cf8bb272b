import RequestCompiler.Json
import RequestCompiler.Json.Quoted
import RequestCompiler.Binary64.Decimal

/-!
# Writing JSON text

`compact` writes a value without any space, `pretty` with one item or field per line, two
spaces deeper at each level. `canonical` is the form that is hashed: compact, with the keys
of every object sorted by code units, so it depends on the content alone. A number that is
not finite is written as null, and so is a negative zero as zero.
-/

namespace RequestCompiler.Json

def numberText (n : Binary64) : Text := if n.isFinite then n.text else "null"

def boolText (b : Bool) : Text := if b then "true" else "false"

mutual

/-- The value without spaces. -/
def compact : Json → Text
  | null => "null"
  | bool b => boolText b
  | num n => numberText n
  | str t => t.quote
  | arr items => "[" ++ Text.join "," (compactItems items) ++ "]"
  | obj fields => "\x7b" ++ Text.join "," (compactFields fields) ++ "\x7d"
termination_by structural j => j

def compactItems : List Json → List Text
  | [] => []
  | j :: r => compact j :: compactItems r
termination_by structural js => js

def compactFields : List (Text × Json) → List Text
  | [] => []
  | (key, j) :: r => (key.quote ++ ":" ++ compact j) :: compactFields r
termination_by structural fs => fs

end

/-- A line end and the margin of a level. -/
def newline (depth : Nat) : Text := unit '\n' :: Text.repeated (2 * depth) ' '

/-- Lines between brackets; no lines leave the brackets together. -/
def bracketed (opening closing : Text) (depth : Nat) (lines : List Text) : Text :=
  if lines.isEmpty then opening ++ closing
  else
    opening ++ newline (depth + 1) ++ Text.join ("," ++ newline (depth + 1)) lines
      ++ newline depth ++ closing

mutual

/-- The value with one item or field per line, where the first line is at level `depth`. -/
def prettyAt (depth : Nat) : Json → Text
  | null => "null"
  | bool b => boolText b
  | num n => numberText n
  | str t => t.quote
  | arr items => bracketed "[" "]" depth (prettyItems (depth + 1) items)
  | obj fields => bracketed "\x7b" "\x7d" depth (prettyFields (depth + 1) fields)
termination_by structural j => j

def prettyItems (depth : Nat) : List Json → List Text
  | [] => []
  | j :: r => prettyAt depth j :: prettyItems depth r
termination_by structural js => js

def prettyFields (depth : Nat) : List (Text × Json) → List Text
  | [] => []
  | (key, j) :: r => (key.quote ++ ": " ++ prettyAt depth j) :: prettyFields depth r
termination_by structural fs => fs

end

/-- The value with one item or field per line. -/
def pretty (j : Json) : Text := prettyAt 0 j

/-- Pairs in ascending order of their keys, by code units. -/
def sortByKey {α : Type} (pairs : List (Text × α)) : List (Text × α) :=
  pairs.mergeSort fun p q => Text.le p.1 q.1

mutual

/-- The compact form with sorted keys. -/
def canonical : Json → Text
  | null => "null"
  | bool b => boolText b
  | num n => numberText n
  | str t => t.quote
  | arr items => "[" ++ Text.join "," (canonicalItems items) ++ "]"
  | obj fields =>
    "\x7b" ++ Text.join "," ((sortByKey (canonicalFields fields)).map (·.2)) ++ "\x7d"
termination_by structural j => j

def canonicalItems : List Json → List Text
  | [] => []
  | j :: r => canonical j :: canonicalItems r
termination_by structural js => js

/-- Each key with the text of its field. -/
def canonicalFields : List (Text × Json) → List (Text × Text)
  | [] => []
  | (key, j) :: r => (key, key.quote ++ ":" ++ canonical j) :: canonicalFields r
termination_by structural fs => fs

end

end RequestCompiler.Json
