import RequestCompiler.Json
import RequestCompiler.Json.Quoted

/-!
# Reading JSON text

`Json.read` accepts exactly the texts of the JSON grammar: one value, with spaces, tabs and
line ends around its parts, and nothing after it.
-/

namespace RequestCompiler.Json

def isSpace (u : UInt16) : Bool := u == 0x20 || u == 9 || u == 10 || u == 13

def skipSpace (t : Text) : Text := t.dropWhile isSpace

/-- A numeral as JSON allows it: no plus sign, no leading zero, digits around the point. -/
def isNumber (n : Numeral) : Bool :=
  n.sign != some (unit '+') && !n.whole.isEmpty
    && (n.whole.length == 1 || n.whole.head? != some (unit '0'))
    && n.fraction != some []

/-- A number at the start of the text. -/
def readNumber (t : Text) : Option (Json × Text) :=
  let (n, rest) := Numeral.scan t
  if isNumber n then some (num n.value, rest) else none

/-- One of the three words at the start of the text. -/
def readWord (t : Text) : Option (Json × Text) :=
  if (Text.ofString "true").isPrefixOf t then some (bool true, t.drop 4)
  else if (Text.ofString "false").isPrefixOf t then some (bool false, t.drop 5)
  else if (Text.ofString "null").isPrefixOf t then some (null, t.drop 4)
  else none

mutual

/-- A value at the start of the text, and the rest. The count bounds the nesting and the
number of items together; twice the length of the text is enough. -/
def readValue : Nat → Text → Option (Json × Text)
  | 0, _ => none
  | n + 1, t =>
    match skipSpace t with
    | [] => none
    | u :: r =>
      if u = unit '{' then
        match skipSpace r with
        | [] => none
        | v :: s =>
          if v = unit '}' then some (obj [], s)
          else (readMembers n (v :: s)).map fun p => (obj (Fields.ofList p.1), p.2)
      else if u = unit '[' then
        match skipSpace r with
        | [] => none
        | v :: s =>
          if v = unit ']' then some (arr [], s)
          else (readItems n (v :: s)).map fun p => (arr p.1, p.2)
      else if u = unit '"' then (Text.unquote r).map fun p => (str p.1, p.2)
      else if u = unit '-' ∨ Numeral.isDigit u then readNumber (u :: r)
      else readWord (u :: r)

/-- Values up to the closing bracket, at least one. -/
def readItems : Nat → Text → Option (List Json × Text)
  | 0, _ => none
  | n + 1, t =>
    match readValue n t with
    | none => none
    | some (j, rest) =>
      match skipSpace rest with
      | [] => none
      | u :: r =>
        if u = unit ',' then (readItems n r).map fun p => (j :: p.1, p.2)
        else if u = unit ']' then some ([j], r)
        else none

/-- Keys and values up to the closing brace, at least one pair. -/
def readMembers : Nat → Text → Option (List (Text × Json) × Text)
  | 0, _ => none
  | n + 1, t =>
    match skipSpace t with
    | [] => none
    | q :: body =>
      if q = unit '"' then
        match Text.unquote body with
        | none => none
        | some (key, rest) =>
          match skipSpace rest with
          | [] => none
          | c :: r =>
            if c = unit ':' then
              match readValue n r with
              | none => none
              | some (j, after) =>
                match skipSpace after with
                | [] => none
                | u :: s =>
                  if u = unit ',' then (readMembers n s).map fun p => ((key, j) :: p.1, p.2)
                  else if u = unit '}' then some ([(key, j)], s)
                  else none
            else none
      else none

end

/-- The value that a JSON text stands for. -/
def read (t : Text) : Option Json :=
  match readValue (2 * t.length + 2) t with
  | some (j, rest) => if (skipSpace rest).isEmpty then some j else none
  | none => none

end RequestCompiler.Json
