import RequestCompiler.Yaml.Node.Properties
import RequestCompiler.Yaml.Node.Tags
import RequestCompiler.Yaml.Node.Value
import RequestCompiler.Yaml.Scalar.Block
import RequestCompiler.Yaml.Tree.Builder

/-!
# Reading the tree of a document

`readTree` turns a tree into a node and checks what the shape of the tree leaves open: keys on
one line and different from each other, entries at one column, commas between the entries of flow
collections, block collections only in block context. Where a rule is broken there is no node.
-/

namespace RequestCompiler.Yaml

/-! ## Line ends in keys -/

mutual

/-- A key that is not on one line. Block scalars and block collections never are. -/
def spansLines : Tree → Bool
  | .scalar t after => t.text.any (· == unit '\n') || Token.anyOf .newline after
  | .flow _ _ entries _ => anySpansLines entries
  | .block _ _ _ _ => true
  | .mapping _ _ _ => true
  | .sequence _ _ _ => true
termination_by structural t => t

def anySpansLines : List (Entry Tree) → Bool
  | [] => false
  | ⟨lead, key, link, value, _⟩ :: r =>
    Token.anyOf .newline lead || Token.anyOf .newline (link.getD []) || optionSpansLines key
      || optionSpansLines value || anySpansLines r
termination_by structural es => es

def optionSpansLines : Option Tree → Bool
  | none => false
  | some t => spansLines t
termination_by structural t => t

end

/-! ## Checks -/

/-- The most characters from the start of a key without a question mark to its colon. -/
def keyLimit : Nat := 1024

/-- A key without a question mark starts too far before its colon. -/
def isFarFrom (p : Properties) (key : Option Tree) (colon : Token) : Bool :=
  let start := p.start?.getD ((key.map Tree.offset).getD colon.offset)
  start + keyLimit < colon.offset

/-- No two scalar keys are the same. -/
def distinctKeys : List Node → Bool
  | [] => true
  | k :: r => !(r.any fun l => k.sameScalar l) && distinctKeys r

/-- Filler that has the place of an entry. -/
def isFillerEntry (e : Entry Tree) (p : Properties) : Bool :=
  p.indicator.isNone && !p.isMarked && e.link.isNone

/-- No filler that has the place of an entry stands before the last pair, unless more of it
follows. -/
def fillerAtEnd {α : Type} (pairs : List (Option α)) : Bool :=
  pairs.all Option.isSome || pairs.getLast?.any Option.isNone

/-- The name of an anchor, which is not empty. -/
def anchorName? (p : Properties) : Option (Option Text) :=
  match p.anchor with
  | none => some none
  | some t => if t.text.length ≤ 1 then none else some (some (t.text.drop 1))

/-- The name of the tag, which has to have one. -/
def tagName? (handles : TagHandles) (p : Properties) : Option (Option Text) :=
  match p.tag with
  | none => some none
  | some t => (handles.resolve t.text).map some

/-- A scalar with a text. -/
def scalarNode (handles : TagHandles) (p : Properties) (style : ScalarStyle) (t : Text) :
    Option Node := do
  let anchor ← anchorName? p
  let value :=
    match ← tagName? handles p with
    | none => if style = .plain then coreValue t else .str t
    | some name => taggedValue name t
  return .scalar anchor style t value

/-- The empty scalar. -/
def emptyNode (handles : TagHandles) (p : Properties) : Option Node :=
  scalarNode handles p .plain []

/-- A scalar in one piece or an alias. -/
def inlineNode (handles : TagHandles) (p : Properties) (t : Token) (after : List Token) :
    Option Node :=
  if !isTail true after then none
  else
    match t.kind with
    | .aliasMark =>
      if t.text.length ≤ 1 || p.isMarked then none else some (.aliasOf (t.text.drop 1))
    | .plain => do scalarNode handles p .plain (← plainText t.text)
    | .singleQuoted => do scalarNode handles p .singleQuoted (← singleQuotedText t.text)
    | .doubleQuoted => do scalarNode handles p .doubleQuoted (← doubleQuotedText t.text)
    | _ => none

/-- A block scalar. -/
def blockNode (handles : TagHandles) (p : Properties) (atRoot : Bool) (header : Token)
    (after : List Token) (indent : Nat) (content : Text) : Option Node := do
  if !isTail true after then none
  let h ← BlockHeader.ofText? header.text
  scalarNode handles p .block (← blockText h indent atRoot content)

/-- The properties of a block sequence are on a line of their own. -/
def sequencePropertiesEnd (p : Properties) : Bool :=
  match p.last?, p.newlineAfter with
  | none, _ => true
  | some _, none => false
  | some last, some newline => last ≤ newline.offset

/-- The brackets of a flow collection match, and only filler follows them. -/
def isClosedBy (opening : Token) (closing : List Token) : Bool :=
  match closing with
  | [] => false
  | bracket :: after =>
    bracket.kind == (if opening.kind = .mapOpen then .mapClose else .sequenceClose)
      && isTail true after

/-- No line end stands in front of the colon. -/
def colonOnLine (link : List Token) : Bool :=
  !Token.anyOf .newline (link.takeWhile fun t => t.kind != .valueMark)

/-! ## Nodes -/

mutual

/-- The node of a tree with its properties. -/
def readTree (handles : TagHandles) (atRoot : Bool) (p : Properties) : Tree → Option Node
  | .scalar t after => inlineNode handles p t after
  | .block header after indent content => blockNode handles p atRoot header after indent content
  | .mapping _ indent entries => do
    let anchor ← anchorName? p
    let _ ← tagName? handles p
    let pairs ← readMapping handles indent entries
    let kept := pairs.filterMap id
    if fillerAtEnd pairs && distinctKeys (kept.map (·.1)) then
      return .mapping anchor kept
    else none
  | .sequence _ indent entries => do
    let anchor ← anchorName? p
    let _ ← tagName? handles p
    if sequencePropertiesEnd p then
      return .sequence anchor (← readSequence handles indent entries)
    else none
  | .flow opening indent entries closing => do
    let anchor ← anchorName? p
    let _ ← tagName? handles p
    if !isClosedBy opening closing then none
    else if opening.kind = .mapOpen then
      let pairs ← readFlow handles true indent true entries
      let pairs := pairs.map fun e => (e.1, e.2.2)
      if distinctKeys (pairs.map (·.1)) then return .mapping anchor pairs else none
    else
      let items ← readFlow handles false indent true entries
      return .sequence anchor (items.map fun e =>
        if e.2.1 then .mapping none [(e.1, e.2.2)] else e.1)
termination_by structural t => t

/-- A value, which is empty if there is no tree. -/
def readOption (handles : TagHandles) (p : Properties) : Option Tree → Option Node
  | none => emptyNode handles p
  | some t => readTree handles false p t
termination_by structural t => t

/-- The pairs of a block mapping, and nothing for filler in the place of a pair. -/
def readMapping (handles : TagHandles) (indent : Nat) :
    List (Entry Tree) → Option (List (Option (Node × Option Node)))
  | [] => some []
  | ⟨lead, key, link, value, explicit⟩ :: r => do
    let p ← Properties.ofTokens ⟨false, .keyMark, .ofKey key link, indent, true⟩ lead
    let implicit := p.indicator.isNone
    let misplaced :=
      match p.indicator with
      | some mark => mark.indent != indent
      | none => key.any fun (k : Tree) => k.isSequence || k.indent != indent
    if misplaced then none
    else if isFillerEntry ⟨lead, key, link, value, explicit⟩ p then
      return none :: (← readMapping handles indent r)
    else if implicit && (p.newlineAfter.isSome || key.any spansLines) then none
    else
      let k ← readOption handles p key
      let fresh := key.all Tree.isBlockScalar
      let q ← Properties.ofTokens ⟨false, .valueMark, .ofValue value, indent, fresh⟩ (link.getD [])
      match q.indicator with
      | none =>
        if implicit then none
        else return some (k, none) :: (← readMapping handles indent r)
      | some colon =>
        if implicit && ((value.any Tree.isMapping && !q.hasNewline) || isFarFrom p key colon) then
          none
        else
          let v ← readOption handles q value
          return some (k, some v) :: (← readMapping handles indent r)
termination_by structural es => es

/-- The items of a block sequence. -/
def readSequence (handles : TagHandles) (indent : Nat) : List (Entry Tree) → Option (List Node)
  | [] => some []
  | ⟨lead, _, _, value, _⟩ :: r => do
    let p ← Properties.ofTokens ⟨false, .itemMark, .ofValue value, indent, true⟩ lead
    if p.indicator.isNone then
      if p.isMarked || value.isSome then none else readSequence handles indent r
    else
      let n ← readOption handles p value
      return n :: (← readSequence handles indent r)
termination_by structural es => es

/-- The entries of a flow collection: the key or the item, whether the entry is a pair, and
the value of a pair. -/
def readFlow (handles : TagHandles) (isMap : Bool) (indent : Nat) (isFirst : Bool) :
    List (Entry Tree) → Option (List (Node × Bool × Option Node))
  | [] => some []
  | ⟨lead, key, link, value, _⟩ :: r => do
    let p ← Properties.ofTokens ⟨true, .keyMark, .ofKey key link, indent, false⟩ lead
    let bare := p.indicator.isNone
    if bare && !p.isMarked && link.isNone && value.isNone then
      if r.isEmpty && !(isFirst && p.comma) then return [] else none
    else if isFirst == p.comma then none
    else if bare && !isMap && key.any spansLines then none
    else if !isMap && link.isNone && bare then
      if value.any Tree.isBlockCollection then none
      else
        let n ← readOption handles p value
        return (n, false, none) :: (← readFlow handles isMap indent false r)
    else if key.any Tree.isBlockCollection || value.any Tree.isBlockCollection then none
    else
      let k ← readOption handles p key
      let q ← Properties.ofTokens ⟨true, .valueMark, .ofValue value, indent, false⟩ (link.getD [])
      match q.indicator with
      | none =>
        if value.isSome then none
        else return (k, true, none) :: (← readFlow handles isMap indent false r)
      | some colon =>
        if !isMap && bare && (!colonOnLine (link.getD []) || isFarFrom p key colon) then none
        else
          let v ← readOption handles q value
          return (k, true, some v) :: (← readFlow handles isMap indent false r)
termination_by structural es => es

end

/-! ## Documents -/

/-- The node of a document. A block collection does not begin on the line of the start
marker. -/
def DocumentTree.node? (d : DocumentTree) (handles : TagHandles) : Option Node := do
  let following : Following :=
    match d.value with
    | some t => .ofTree t
    | none => ((d.after.head?).map Following.ofToken).getD .nothing
  let p ← Properties.ofTokens ⟨false, .documentStart, following, 0, true⟩ d.lead
  let crowded :=
    p.indicator.isSome && d.value.any Tree.isBlockCollection && !p.hasNewline
  if crowded || !isTail false d.after then none
  match d.value with
  | none => emptyNode handles p
  | some t => readTree handles true p t

/-- A document has a start marker. -/
def DocumentTree.isMarked (d : DocumentTree) : Bool := Token.anyOf .documentStart d.lead

/-- The document value of a YAML text; null if it has no document. -/
def read (t : Text) : Option Json := do
  let stream ← Stream.ofTokens (placed .start (← lex t))
  let handles ← TagHandles.ofDirectives stream.directives
  let _ ← TagHandles.ofDirectives stream.later
  match stream.document with
  | none => if stream.directives.isEmpty then return .null else none
  | some d =>
    if !stream.directives.isEmpty && !d.isMarked then none
    (← d.node? handles).value?

end RequestCompiler.Yaml
