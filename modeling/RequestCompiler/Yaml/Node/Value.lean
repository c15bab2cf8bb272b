import RequestCompiler.Yaml.Node.FlowText

/-!
# The value of a node

`Node.value?` is the document value that a node stands for: an alias stands for the node that
last had its anchor, keys become texts, and where aliases of aliases would multiply a value too
often there is none.
-/

namespace RequestCompiler.Yaml

/-- An anchor that has been passed. -/
structure Anchored where
  name : Text
  node : Node
  /-- The value, once the node is complete. -/
  value : Option Json
  /-- One more than the number of aliases of it so far. -/
  uses : Nat
  /-- The number of values in one use, zero as long as it is not known. -/
  weight : Nat

/-- The anchors passed so far, the last one first. -/
abbrev Anchors := List Anchored

/-- A value, given the anchors passed before it. -/
abbrev Evaluating := StateT Anchors Option

/-- The number of values that the aliases of one anchor may stand for. -/
def aliasLimit : Nat := 100

namespace Node

mutual

/-- The most values that an alias inside of a node stands for, and one for a scalar. -/
def weight (anchors : Anchors) : Node → Nat
  | scalar _ _ _ _ => 1
  | aliasOf name =>
    match anchors.find? fun a => a.name == name with
    | some a => a.uses * a.weight
    | none => 0
  | sequence _ items => itemsWeight anchors items
  | mapping _ pairs => pairsWeight anchors pairs
termination_by structural n => n

def itemsWeight (anchors : Anchors) : List Node → Nat
  | [] => 0
  | n :: r => max (weight anchors n) (itemsWeight anchors r)
termination_by structural ns => ns

def pairsWeight (anchors : Anchors) : List (Node × Option Node) → Nat
  | [] => 0
  | (key, none) :: r => max (max (weight anchors key) 1) (pairsWeight anchors r)
  | (key, some value) :: r =>
    max (max (weight anchors key) (weight anchors value)) (pairsWeight anchors r)
termination_by structural ps => ps

end

/-- Passes the anchor of a node. -/
def enter (anchor : Option Text) (n : Node) : Evaluating Unit :=
  modify fun anchors =>
    match anchor with
    | some name => ⟨name, n, none, 1, 0⟩ :: anchors
    | none => anchors

/-- Gives the value to the last anchor of the name that has none. -/
def complete (name : Text) (value : Json) : Anchors → Anchors
  | [] => []
  | a :: r =>
    if a.name == name && a.value.isNone then { a with value := some value } :: r
    else a :: complete name value r

/-- Ends a node with an anchor. -/
def leave (anchor : Option Text) (value : Json) : Evaluating Json := do
  match anchor with
  | some name => modify (complete name value)
  | none => pure ()
  return value

/-- The value that an alias stands for. A node has no alias of itself inside. -/
def resolve (name : Text) : Evaluating Json := fun anchors =>
  match anchors.find? fun a => a.name == name with
  | none => none
  | some a => do
    let value ← a.value
    let uses := a.uses + 1
    let weight := if a.weight = 0 then a.node.weight anchors else a.weight
    if aliasLimit < uses * weight then none
    else
      let rec update : Anchors → Anchors
        | [] => []
        | b :: r =>
          if b.name == name then { b with uses := uses, weight := weight } :: r
          else b :: update r
      some (value, update anchors)

mutual

/-- The value of a node. -/
def evaluate : Node → Evaluating Json
  | scalar anchor style text value => do
    enter anchor (scalar anchor style text value)
    leave anchor value
  | aliasOf name => resolve name
  | sequence anchor items => do
    enter anchor (sequence anchor items)
    let values ← evaluateItems items
    leave anchor (.arr values)
  | mapping anchor pairs => do
    enter anchor (mapping anchor pairs)
    let fields ← evaluatePairs pairs
    leave anchor (.obj (Fields.ofList fields))
termination_by structural n => n

def evaluateItems : List Node → Evaluating (List Json)
  | [] => return []
  | n :: r => do
    let value ← evaluate n
    return value :: (← evaluateItems r)
termination_by structural ns => ns

def evaluatePairs : List (Node × Option Node) → Evaluating (List (Text × Json))
  | [] => return []
  | (key, none) :: r => do
    let k ← evaluate key
    return (key.keyText k, .null) :: (← evaluatePairs r)
  | (key, some value) :: r => do
    let k ← evaluate key
    let v ← evaluate value
    return (key.keyText k, v) :: (← evaluatePairs r)
termination_by structural ps => ps

end

/-- The document value of a node. -/
def value? (n : Node) : Option Json := (n.evaluate.run []).map (·.1)

end Node

end RequestCompiler.Yaml
