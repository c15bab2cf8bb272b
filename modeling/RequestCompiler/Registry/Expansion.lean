import RequestCompiler.Json

/-!
# Copies of expansion content

A definition holds a copy of its expansion that nobody can change. The copy has the fields of
the source except for the key `__proto__`, which names a parent and no field: an object or
list under it becomes the parent of the copy, null takes the parent away, and other values
are passed over. Whatever a parent holds is fixed for the fields set after it, so a later
field of the same name makes the copy fail.
-/

namespace RequestCompiler.Expansion

/-- A field would replace one that the parent of its object holds. -/
inductive CopyFault
  | fixedField (key : Text)
deriving DecidableEq, Repr

/-- The key that names a parent. -/
def parentKey : Text := "__proto__"

/-- A copied value, with the field names it holds as a parent. -/
structure Copy where
  value : Json
  holds : List Text

/-- The field names that a list of `n` items holds. -/
def listFields (n : Nat) : List Text := Text.ofString "length" :: (List.range n).map Text.ofNat

/-- The names fixed after `__proto__` was set to a value, if they were `parent` before. -/
def parentAfter (parent : List Text) (source : Json) (copy : Copy) : List Text :=
  match source with
  | .obj _ => copy.holds
  | .arr _ => copy.holds
  | .null => []
  | _ => parent

mutual

/-- The copy of a value. -/
def copyOf : Json → Except CopyFault Copy
  | .obj fields => (copyFields [] fields).map fun p => ⟨.obj p.1, p.1.map (·.1) ++ p.2⟩
  | .arr items => (copyItems items).map fun xs => ⟨.arr xs, listFields xs.length⟩
  | .null => .ok ⟨.null, []⟩
  | .bool b => .ok ⟨.bool b, []⟩
  | .num n => .ok ⟨.num n, []⟩
  | .str t => .ok ⟨.str t, []⟩
termination_by structural j => j

def copyItems : List Json → Except CopyFault (List Json)
  | [] => .ok []
  | j :: r =>
    match copyOf j with
    | .error e => .error e
    | .ok c => (copyItems r).map fun xs => c.value :: xs
termination_by structural js => js

/-- The copied fields, and the names that the parent holds at the end. -/
def copyFields (parent : List Text) :
    List (Text × Json) → Except CopyFault (List (Text × Json) × List Text)
  | [] => .ok ([], parent)
  | (key, j) :: r =>
    match copyOf j with
    | .error e => .error e
    | .ok c =>
      if key = parentKey then copyFields (parentAfter parent j c) r
      else if key ∈ parent then .error (.fixedField key)
      else (copyFields parent r).map fun p => ((key, c.value) :: p.1, p.2)
termination_by structural fs => fs

end

/-- The content that a definition keeps of an expansion. -/
def copy (j : Json) : Except CopyFault Json := (copyOf j).map (·.value)

end RequestCompiler.Expansion
