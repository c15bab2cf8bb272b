import RequestCompiler.Yaml.Tree

/-!
# Building the tree of a document

Tokens are offered one after the other to the innermost open level of the document. A level
takes a token, opens a level for it, or is finished; then it becomes a part of the level below,
to which the token is offered next. Which of these happens depends on the indentation of the
token. `DocumentTree.ofTokens` answers `none` for a token that has no place, and for a second
document. What it builds may still break rules of YAML: those are checked when the tree is read.
-/

namespace RequestCompiler.Yaml

/-- A level of a document that can still grow. Entries are kept last one first. -/
inductive Level
  | document (lead : List Token) (value : Option Tree) (after : List Token)
  | scalar (token : Token) (after : List Token)
  | block (header : Token) (after : List Token) (content : Text)
  | mapping (offset indent : Nat) (last : Entry Tree) (earlier : List (Entry Tree))
  | sequence (offset indent : Nat) (last : Entry Tree) (earlier : List (Entry Tree))
  | flow (opening : Token) (entries : List (Entry Tree)) (closing : List Token)

/-- The open levels, the innermost first, and whether the last key began on this line. -/
structure Levels where
  open_ : List Level
  onKeyLine : Bool

/-- What a level does with a token. -/
inductive Move
  /-- The token is taken, and these are the open levels now. -/
  | take (levels : Levels)
  /-- The level is finished, and the token is for the level below. -/
  | finish
  /-- The token is taken and finishes the level. -/
  | takeAndFinish (levels : Levels)

/-! ## Tokens before a key -/

/-- A token after which the properties of a key can begin. -/
def beginsKeyLead (t : Token) : Bool :=
  t.kind == .documentStart || t.kind.isBlockMark || t.kind == .newline

/-- The tokens that stay, and the ones that belong to a key that follows: those after the last
line end or indicator, without leading spaces. -/
def splitKeyLead (ts : List Token) : List Token × List Token :=
  let tail := (ts.reverse.takeWhile fun t => !beginsKeyLead t).reverse
  let lead := tail.dropWhile fun t => t.kind == .space
  (ts.take (ts.length - lead.length), lead)

namespace Level

/-- The tokens at the end of a level that belong to a key that follows, and the level without
them. -/
def takeKeyLead : Level → List Token × Level
  | document lead value after => ((splitKeyLead lead).2, document (splitKeyLead lead).1 value after)
  | mapping o i last earlier =>
    match last.link with
    | some link =>
      ((splitKeyLead link).2, mapping o i { last with link := some (splitKeyLead link).1 } earlier)
    | none =>
      ((splitKeyLead last.lead).2,
        mapping o i { last with lead := (splitKeyLead last.lead).1 } earlier)
  | sequence o i last earlier =>
    ((splitKeyLead last.lead).2,
      sequence o i { last with lead := (splitKeyLead last.lead).1 } earlier)
  | level => ([], level)

/-- The indentation of a level; a document has none. -/
def indent : Level → Nat
  | mapping _ i _ _ => i
  | sequence _ i _ _ => i
  | flow t _ _ => t.indent
  | scalar t _ => t.indent
  | block t _ _ => t.indent
  | document _ _ _ => 0

def isFlow : Level → Bool
  | flow _ _ _ => true
  | _ => false

def isDocument : Level → Bool
  | document _ _ _ => true
  | _ => false

end Level

/-! ## Finished levels -/

/-- An item of a flow sequence: an entry without colon and question mark is a value alone. -/
def itemOfEntry (e : Entry Tree) : Entry Tree :=
  match e.key, e.link, e.value with
  | some key, some link, none =>
    if Token.anyOf .keyMark e.lead || Token.anyOf .valueMark link then e
    else if key.isInline then { Entry.ofLead e.lead with value := some (key.addAfter link) }
    else { Entry.ofLead (e.lead ++ link) with value := some key }
  | _, _, _ => e

/-- The entries of a finished flow collection. -/
def flowEntries (opening : Token) (entries : List (Entry Tree)) : List (Entry Tree) :=
  if opening.kind = .sequenceOpen then entries.reverse.map itemOfEntry else entries.reverse

/-- The tree of a finished level, as a part of `parent`. -/
def Level.tree? (level parent : Level) : Option Tree :=
  match level with
  | document _ _ _ => none
  | scalar t after => some (.scalar t after)
  | block header after content => some (.block header after parent.indent content)
  | mapping o i last earlier => some (.mapping o i (last :: earlier).reverse)
  | sequence o i last earlier => some (.sequence o i (last :: earlier).reverse)
  | flow opening entries closing =>
    some (.flow opening (if parent.isDocument then 0 else opening.indent)
      (flowEntries opening entries) closing)

/-- The entries without a last one that is filler only and may as well stand after the
collection, and the tokens of that last one. -/
def splitTrailing (indent : Nat) (entries : List (Entry Tree)) :
    List (Entry Tree) × List Token :=
  match entries.getLast? with
  | none => (entries, [])
  | some last =>
    let movable :=
      last.link.isNone && last.value.isNone && !last.lead.isEmpty && Token.allFiller last.lead
        && (indent == 0 || last.lead.all fun t => t.kind != .comment || t.indent < indent)
    if movable then (entries.dropLast, last.lead) else (entries, [])

/-- A tree and the filler that moves behind it. -/
def Tree.splitTrailing : Tree → Tree × List Token
  | mapping o i entries =>
    (mapping o i (Yaml.splitTrailing i entries).1, (Yaml.splitTrailing i entries).2)
  | sequence o i entries =>
    (sequence o i (Yaml.splitTrailing i entries).1, (Yaml.splitTrailing i entries).2)
  | t => (t, [])

/-- One more entry of filler, unless there is none. -/
def pushFiller (filler : List Token) (last : Entry Tree) (earlier : List (Entry Tree)) :
    Entry Tree × List (Entry Tree) :=
  if filler.isEmpty then (last, earlier) else (Entry.ofLead filler, last :: earlier)

/-- Makes a finished tree a part of the innermost level. -/
def Levels.attach (tree : Tree) (s : Levels) : Option Levels :=
  match s.open_ with
  | .document lead none _ :: below =>
    let (kept, moved) := tree.splitTrailing
    some { s with open_ := .document lead (some kept) moved :: below }
  | .mapping o i last earlier :: below =>
    match last.value, last.link with
    | some _, _ => some ⟨.mapping o i (.ofKey [] (some tree) []) (last :: earlier) :: below, true⟩
    | none, some _ =>
      let (last', earlier') :=
        pushFiller tree.splitTrailing.2 { last with value := some tree.splitTrailing.1 } earlier
      some { s with open_ := .mapping o i last' earlier' :: below }
    | none, none =>
      some ⟨.mapping o i { last with key := some tree, link := some [] } earlier :: below,
        !last.explicit⟩
  | .sequence o i last earlier :: below =>
    let (last', earlier') :=
      match last.value with
      | some _ =>
        pushFiller tree.splitTrailing.2
          { Entry.ofLead [] with value := some tree.splitTrailing.1 } (last :: earlier)
      | none =>
        pushFiller tree.splitTrailing.2 { last with value := some tree.splitTrailing.1 } earlier
    some { s with open_ := .sequence o i last' earlier' :: below }
  | .flow opening entries closing :: below =>
    let entries' :=
      match entries with
      | [] => [.ofKey [] (some tree) []]
      | last :: earlier =>
        match last.value, last.link with
        | some _, _ => .ofKey [] (some tree) [] :: last :: earlier
        | none, some _ => { last with value := some tree } :: earlier
        | none, none => { last with key := some tree, link := some [] } :: earlier
    some { s with open_ := .flow opening entries' closing :: below }
  | _ => none

/-- Finishes the innermost level. -/
def Levels.finishOne (s : Levels) : Option Levels :=
  match s.open_ with
  | level :: parent :: below => do
    let tree ← level.tree? parent
    Levels.attach tree { s with open_ := parent :: below }
  | _ => none

/-! ## Opening levels -/

/-- Opens a level inside the innermost one for a token that can begin a value. -/
def Levels.openFor? (t : Token) (parent : Level) (below : List Level) (onKeyLine : Bool) :
    Option Levels :=
  let inside (level : Level) : Option Levels := some ⟨level :: parent :: below, onKeyLine⟩
  let (lead, rest) := parent.takeKeyLead
  match t.kind with
  | .aliasMark | .plain | .singleQuoted | .doubleQuoted => inside (.scalar t [])
  | .blockHeader => inside (.block t [] [])
  | .mapOpen | .sequenceOpen => inside (.flow t [] [])
  | .itemMark => inside (.sequence t.offset t.indent (.ofLead [t]) [])
  | .keyMark =>
    let first : Entry Tree := { Entry.ofLead (lead ++ [t]) with explicit := true }
    some ⟨.mapping t.offset t.indent first [] :: rest :: below, true⟩
  | .valueMark =>
    some ⟨.mapping t.offset t.indent (.ofKey lead none [t]) [] :: rest :: below, true⟩
  | _ => none

/-- The mapping that a finished key begins, when its colon comes. The properties of the key
are taken from the level below. -/
def mappingOfKey (offset indent : Nat) (key : Tree) (link : List Token) (below : List Level) :
    Option Levels :=
  match below with
  | [] => none
  | parent :: rest =>
    let (lead, parent') := parent.takeKeyLead
    some ⟨.mapping offset indent (.ofKey lead (some key) link) [] :: parent' :: rest, true⟩

/-! ## Levels and tokens -/

/-- A token behind a finished value: filler stays in its line, an indicator that structures an
outer level finishes the value, and nothing else can stand here. -/
def behindValue (t : Token) (level : Level) (below : List Level) (onKeyLine : Bool) : Option Move :=
  match t.kind with
  | .space | .comment => some (.take ⟨level :: below, onKeyLine⟩)
  | .newline => some (.takeAndFinish ⟨level :: below, false⟩)
  | .comma | .mapClose | .sequenceClose | .valueMark => some .finish
  | _ => none

def offerToScalar (t token : Token) (after : List Token) (below : List Level) (onKeyLine : Bool) :
    Option Move :=
  if t.kind = .valueMark && !(below.head?.any Level.isFlow) then
    (mappingOfKey token.offset token.indent (.scalar token []) (after ++ [t]) below).map .take
  else behindValue t (.scalar token (after ++ [t])) below onKeyLine

def offerToBlock (t header : Token) (after : List Token) (below : List Level) (onKeyLine : Bool) :
    Option Move :=
  if t.kind.isFiller then some (.take ⟨.block header (after ++ [t]) [] :: below, onKeyLine⟩)
  else if t.kind = .blockContent then
    some (.takeAndFinish ⟨.block header after t.text :: below, onKeyLine⟩)
  else none

/-- Where in the tokens after a key the lead of the next entry begins: behind the second of the
line ends that nothing but filler follows. A comment inside of the mapping counts as content. -/
def nextLeadAt (indent : Nat) (link : List Token) : Option Nat :=
  let ends := link.zipIdx.foldl (fun acc p =>
    match p.1.kind with
    | .newline => acc ++ [p.2]
    | .space => acc
    | .comment => if indent < p.1.indent then [] else acc
    | _ => []) ([] : List Nat)
  ends[1]?

/-- Filler in a collection: it goes behind a value that ends in a comment, and else begins an
entry or lengthens the last one. A comment that is indented like the value before it goes
behind that value. -/
def fillerInBlock (t : Token) (indent : Nat) (last : Entry Tree) (earlier : List (Entry Tree)) :
    Entry Tree × List (Entry Tree) :=
  match last.value, last.link with
  | some v, _ =>
    if t.kind = .newline && v.endsInComment then
      ({ last with value := some (v.addAfter [t]) }, earlier)
    else (.ofLead [t], last :: earlier)
  | none, some link => ({ last with link := some (link ++ [t]) }, earlier)
  | none, none =>
    let longer := { last with lead := last.lead ++ [t] }
    if t.kind = .comment && indent < t.indent
        && last.lead.all fun s => s.kind == .newline || s.kind == .space then
      match earlier with
      | before :: rest =>
        match before.value with
        | some v =>
          if v.after?.isSome then
            ({ before with value := some (v.addAfter (last.lead ++ [t])) }, rest)
          else (longer, earlier)
        | none => (longer, earlier)
      | [] => (longer, earlier)
    else (longer, earlier)

/-- A colon in a mapping. -/
def colonInMapping (t : Token) (o i : Nat) (last : Entry Tree) (earlier : List (Entry Tree))
    (lead : List Token) (atNext : Bool) (below : List Level) : Levels :=
  let here (last : Entry Tree) (earlier : List (Entry Tree)) : Levels :=
    ⟨.mapping o i last earlier :: below, true⟩
  let inside (last inner : Entry Tree) : Levels :=
    ⟨.mapping t.offset t.indent inner [] :: .mapping o i last earlier :: below, true⟩
  match last.link with
  | none =>
    if last.explicit && !Token.anyOf .newline last.lead then
      let (kept, lead') := splitKeyLead last.lead
      inside { last with lead := kept } (.ofKey lead' none [t])
    else here { last with key := none, link := some [t] } earlier
  | some link =>
    let longer := { last with link := some (link ++ [t]) }
    if last.value.isSome then
      here (.ofKey (if last.explicit then [] else lead) none [t]) (last :: earlier)
    else if atNext && !last.explicit then here (.ofKey lead none [t]) (last :: earlier)
    else if Token.anyOf .valueMark link then
      inside last (.ofKey (if last.explicit then lead else []) none [t])
    else if last.explicit then
      if last.key.any Tree.isInline && !Token.anyOf .newline link then
        let (kept, lead') := splitKeyLead last.lead
        inside { last with lead := kept, key := none, link := none }
          (.ofKey lead' last.key (link ++ [t]))
      else here { last with link := some (link ++ lead ++ [t]) } earlier
    else here longer earlier

def offerToMapping (t : Token) (o i : Nat) (last : Entry Tree) (earlier : List (Entry Tree))
    (below : List Level) (onKeyLine : Bool) : Option Move :=
  if t.kind.isFiller then
    let (last', earlier') := fillerInBlock t i last earlier
    some (.take ⟨.mapping o i last' earlier' :: below, onKeyLine && t.kind != .newline⟩)
  else if t.indent < i then some .finish
  else
    let atIndent := !onKeyLine && t.indent == i
    let atNext := atIndent && (last.link.isSome || last.explicit) && t.kind != .itemMark
    let (last, lead) :=
      match last.value, last.link with
      | none, some link =>
        match if atNext then nextLeadAt i link else none with
        | some n => ({ last with link := some (link.take n) }, link.drop n)
        | none => (last, [])
      | _, _ => (last, [])
    let here (last : Entry Tree) (earlier : List (Entry Tree)) (onKeyLine : Bool) : Option Move :=
      some (.take ⟨.mapping o i last earlier :: below, onKeyLine⟩)
    let next := atNext || last.value.isSome
    match t.kind with
    | .anchor | .tag =>
      if next then here (.ofLead (lead ++ [t])) (last :: earlier) true
      else
        match last.link with
        | some link => here { last with link := some (link ++ [t]) } earlier onKeyLine
        | none => here { last with lead := last.lead ++ [t] } earlier onKeyLine
    | .keyMark =>
      if last.link.isNone && !last.explicit then
        here { last with lead := last.lead ++ [t], explicit := true } earlier true
      else if next then
        here { Entry.ofLead (lead ++ [t]) with explicit := true } (last :: earlier) true
      else
        let inner : Entry Tree := { Entry.ofLead [t] with explicit := true }
        some (.take
          ⟨.mapping t.offset t.indent inner [] :: .mapping o i last earlier :: below, true⟩)
    | .valueMark => some (.take (colonInMapping t o i last earlier lead atNext below))
    | .aliasMark | .plain | .singleQuoted | .doubleQuoted =>
      if next then here (.ofKey lead (some (.scalar t [])) []) (last :: earlier) true
      else if last.link.isSome then
        some (.take ⟨.scalar t [] :: .mapping o i last earlier :: below, onKeyLine⟩)
      else here { last with key := some (.scalar t []), link := some [] } earlier true
    | .itemMark =>
      if !last.explicit && last.link.any fun link => !Token.anyOf .newline link then none
      else (Levels.openFor? t (.mapping o i last earlier) below onKeyLine).map .take
    | _ =>
      let parent : Level :=
        if atIndent then .mapping o i (.ofLead lead) (last :: earlier)
        else .mapping o i last earlier
      match Levels.openFor? t parent below onKeyLine with
      | some levels => some (.take levels)
      | none => some .finish

def offerToSequence (t : Token) (o i : Nat) (last : Entry Tree) (earlier : List (Entry Tree))
    (below : List Level) (onKeyLine : Bool) : Option Move :=
  let here (last : Entry Tree) (earlier : List (Entry Tree)) : Option Move :=
    some (.take ⟨.sequence o i last earlier :: below, onKeyLine⟩)
  if t.kind.isFiller then
    let (last', earlier') := fillerInBlock t i last earlier
    here last' earlier'
  else if (t.kind = .anchor || t.kind = .tag) && last.value.isNone && i < t.indent then
    here { last with lead := last.lead ++ [t] } earlier
  else if t.kind = .itemMark && t.indent == i then
    if last.value.isSome || Token.anyOf .itemMark last.lead then
      here (.ofLead [t]) (last :: earlier)
    else here { last with lead := last.lead ++ [t] } earlier
  else if i < t.indent then
    match Levels.openFor? t (.sequence o i last earlier) below onKeyLine with
    | some levels => some (.take levels)
    | none => some .finish
  else some .finish

/-- A token in a flow collection that is not closed. -/
def offerInFlow (t opening : Token) (entries : List (Entry Tree)) (below : List Level)
    (onKeyLine : Bool) : Option Move :=
  let here (entries : List (Entry Tree)) : Option Move :=
    some (.take ⟨.flow opening entries [] :: below, onKeyLine⟩)
  match t.kind with
  | .comma | .keyMark =>
    match entries with
    | [] => here [.ofLead [t]]
    | last :: earlier =>
      if last.link.isSome then here (.ofLead [t] :: last :: earlier)
      else here ({ last with lead := last.lead ++ [t] } :: earlier)
  | .valueMark =>
    match entries with
    | [] => here [.ofKey [] none [t]]
    | last :: earlier =>
      match last.value, last.link with
      | some _, _ => here (.ofKey [] none [t] :: last :: earlier)
      | none, some link => here ({ last with link := some (link ++ [t]) } :: earlier)
      | none, none => here ({ last with key := none, link := some [t] } :: earlier)
  | .space | .comment | .newline | .anchor | .tag =>
    match entries with
    | [] => here [.ofLead [t]]
    | last :: earlier =>
      match last.value, last.link with
      | some _, _ => here (.ofLead [t] :: last :: earlier)
      | none, some link => here ({ last with link := some (link ++ [t]) } :: earlier)
      | none, none => here ({ last with lead := last.lead ++ [t] } :: earlier)
  | .aliasMark | .plain | .singleQuoted | .doubleQuoted =>
    match entries with
    | [] => here [.ofKey [] (some (.scalar t [])) []]
    | last :: earlier =>
      match last.value, last.link with
      | some _, _ => here (.ofKey [] (some (.scalar t [])) [] :: last :: earlier)
      | none, some _ =>
        some (.take ⟨.scalar t [] :: .flow opening entries [] :: below, onKeyLine⟩)
      | none, none =>
        here ({ last with key := some (.scalar t []), link := some [] } :: earlier)
  | .mapClose | .sequenceClose =>
    some (.take ⟨.flow opening entries [t] :: below, onKeyLine⟩)
  | .mapOpen | .sequenceOpen =>
    some (.take ⟨.flow t [] [] :: .flow opening entries [] :: below, onKeyLine⟩)
  | _ => none

/-- The mapping below has the flow collection as its next key, which a line end finishes as
well as the colon. -/
def isNextKey (t opening : Token) (below : List Level) : Bool :=
  match below with
  | .mapping _ i last _ :: _ =>
    (t.kind == .valueMark && i == opening.indent) || (t.kind == .newline && last.link.isNone)
  | _ => false

def offerToFlow (t opening : Token) (entries : List (Entry Tree)) (closing : List Token)
    (below : List Level) (onKeyLine : Bool) : Option Move :=
  match closing with
  | [] => offerInFlow t opening entries below onKeyLine
  | bracket :: after =>
    if isNextKey t opening below then some .finish
    else if t.kind = .valueMark && !(below.head?.any Level.isFlow) then
      let key : Tree := .flow opening opening.indent (flowEntries opening entries) [bracket]
      (mappingOfKey opening.offset opening.indent key (after ++ [t]) below).map .take
    else behindValue t (.flow opening entries (closing ++ [t])) below onKeyLine

def offerToDocument (t : Token) (lead : List Token) (value : Option Tree) (after : List Token)
    (onKeyLine : Bool) : Option Move :=
  match value with
  | some _ =>
    match behindValue t (.document lead value (after ++ [t])) [] onKeyLine with
    | some .finish => none
    | move => move
  | none =>
    let here : Option Move := some (.take ⟨[.document (lead ++ [t]) none after], onKeyLine⟩)
    match t.kind with
    | .documentStart => if Token.allFiller lead then here else none
    | .anchor | .tag | .space | .comment | .newline => here
    | _ => (Levels.openFor? t (.document lead none after) [] onKeyLine).map .take

/-- What the innermost level does with a token. -/
def Levels.move (t : Token) (s : Levels) : Option Move :=
  match s.open_ with
  | [] => none
  | .document lead value after :: _ => offerToDocument t lead value after s.onKeyLine
  | .scalar token after :: below => offerToScalar t token after below s.onKeyLine
  | .block header after _ :: below => offerToBlock t header after below s.onKeyLine
  | .mapping o i last earlier :: below => offerToMapping t o i last earlier below s.onKeyLine
  | .sequence o i last earlier :: below => offerToSequence t o i last earlier below s.onKeyLine
  | .flow opening entries closing :: below =>
    offerToFlow t opening entries closing below s.onKeyLine

/-- The levels after a token, and whether it finished the document. At most `n` levels are
finished. -/
def Levels.offer : Nat → Token → Levels → Option (Levels × Bool)
  | 0, _, _ => none
  | n + 1, t, s => do
    match ← s.move t with
    | .take levels => return (levels, false)
    | .finish => offer n t (← s.finishOne)
    | .takeAndFinish levels =>
      match levels.open_ with
      | [_] => return (levels, true)
      | _ => return (← levels.finishOne, false)

/-- Finishes all levels above the document. -/
def Levels.finishAll : Nat → Levels → Option Levels
  | 0, s => some s
  | n + 1, s => if s.open_.length ≤ 1 then some s else s.finishOne.bind (finishAll n)

/-! ## Documents -/

/-- How far the tokens of a text have come. -/
inductive Phase
  | before
  | inside
  /-- In the line of an end marker, behind a space or directly behind the marker. -/
  | endLine (spaced : Bool)
  | behind
deriving DecidableEq

/-- A text of which some tokens have been read. -/
structure Builder where
  phase : Phase
  /-- The directives before the document and behind it. -/
  directives : List Text
  later : List Text
  levels : Levels

namespace Builder

def empty : Builder := ⟨.before, [], [], ⟨[], false⟩⟩

/-- The builder after a token. -/
def feed (b : Builder) (t : Token) : Option Builder :=
  match b.phase with
  | .before =>
    match t.kind with
    | .directive => some { b with directives := b.directives ++ [t.text] }
    | .space | .comment | .newline | .byteOrderMark => some b
    | .content => some { b with phase := .inside, levels := ⟨[.document [] none []], false⟩ }
    | _ => none
  | .inside =>
    if t.kind = .documentEnd then do
      return { b with
        phase := .endLine false
        levels := ← b.levels.finishAll b.levels.open_.length }
    else do
      let (levels, closed) ← b.levels.offer (b.levels.open_.length + 1) t
      return { b with phase := if closed then .behind else .inside, levels := levels }
  | .endLine spaced =>
    match t.kind with
    | .space => some { b with phase := .endLine true }
    | .comment => if spaced then some b else none
    | .newline => some { b with phase := .behind }
    | _ => none
  | .behind =>
    match t.kind with
    | .directive => some { b with later := b.later ++ [t.text] }
    | .space | .comment | .newline | .byteOrderMark => some b
    | .documentEnd => some { b with phase := .endLine false }
    | _ => none

/-- The builder after tokens. -/
def feedAll (b : Builder) : List Token → Option Builder
  | [] => some b
  | t :: r => (b.feed t).bind fun b' => b'.feedAll r

end Builder

/-- The directives of a text, and its document if it has one. -/
structure Stream where
  directives : List Text
  later : List Text
  document : Option DocumentTree

/-- The document that the tokens of a text make up. -/
def Stream.ofTokens (ts : List Token) : Option Stream := do
  let b ← Builder.empty.feedAll ts
  let levels ← b.levels.finishAll b.levels.open_.length
  match levels.open_ with
  | [.document lead value after] =>
    return ⟨b.directives, b.later, some ⟨lead, value, after⟩⟩
  | _ => return ⟨b.directives, b.later, none⟩

end RequestCompiler.Yaml
