import RequestCompiler.Binary64.Numeral
import RequestCompiler.Text

/-!
# Document values and the order of their keys

Registries, codexes and log lines are JSON values. The fields of an object are a list of
pairs whose order is fixed: keys that are array indices come first, in ascending order, then
the other keys in the order of their first appearance; a repeated key keeps its place and
takes the last value. `Fields.insert` keeps that order, so `Fields.ofList` of any list of
pairs has it.
-/

namespace RequestCompiler

/-- Fields in key order. -/
abbrev Fields (α : Type) := List (Text × α)

namespace Fields

/-- The index that a key is the canonical numeral of, if it is one (`0` up to `2 ^ 32 - 2`). -/
def index? (key : Text) : Option Nat :=
  if key.all Numeral.isDigit && (1 ≤ key.length && key.length ≤ 10)
      && (key.length == 1 || key.head? != some (unit '0')) then
    let n := Numeral.digitsValue key
    if n < 4294967295 then some n else none
  else none

/-- A new key `k` goes in front of the key `l`. -/
def precedes (k l : Text) : Bool :=
  match index? k, index? l with
  | some a, some b => a < b
  | some _, none => true
  | none, _ => false

/-- Sets the value of a key, in its place if the key is there. -/
def insert {α : Type} (key : Text) (value : α) : Fields α → Fields α
  | [] => [(key, value)]
  | (k, v) :: r =>
    if k = key then (key, value) :: r
    else if precedes key k then (key, value) :: (k, v) :: r
    else (k, v) :: insert key value r

/-- The fields that a list of pairs sets one after another. -/
def ofList {α : Type} (pairs : List (Text × α)) : Fields α :=
  pairs.foldl (fun fields p => insert p.1 p.2 fields) []

/-- The value of a key. -/
def get? {α : Type} (fields : Fields α) (key : Text) : Option α :=
  (fields.find? fun p => p.1 == key).map (·.2)

end Fields

/-- A document value. -/
inductive Json
  | null
  | bool (b : Bool)
  | num (n : Binary64)
  | str (t : Text)
  | arr (items : List Json)
  | obj (fields : List (Text × Json))
deriving Repr

namespace Json

instance : Inhabited Json := ⟨null⟩

/-- The field of an object; `none` for a missing field and for every other kind of value. -/
def field? (j : Json) (key : Text) : Option Json :=
  match j with
  | obj fields => Fields.get? fields key
  | _ => none

/-- The field of an object, where a field that holds null counts as missing. -/
def present? (j : Json) (key : Text) : Option Json :=
  match j.field? key with
  | some null => none
  | other => other

/-- The value is an object. -/
def isObject : Json → Bool
  | obj _ => true
  | _ => false

/-- A natural number as a value. -/
def nat (n : Nat) : Json := num (Binary64.ofNat n)

/-- A list of texts as a value. -/
def texts (ts : List Text) : Json := arr (ts.map str)

/-- An object from its fields in order; keys are literals. -/
def object (fields : List (String × Json)) : Json :=
  obj (fields.map fun p => (Text.ofString p.1, p.2))

end Json

end RequestCompiler
