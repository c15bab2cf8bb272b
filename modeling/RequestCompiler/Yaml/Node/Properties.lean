import RequestCompiler.Yaml.Tree

/-!
# Properties of a node

Between the parts of a collection stand its indicators, the anchor and the tag of the node that
follows, and filler. `Properties.ofTokens` reads such tokens and checks their order: at most
one of each, properties behind the indicator, white space behind properties and in front of
comments, and no tab where indentation counts.
-/

namespace RequestCompiler.Yaml

/-- What follows the tokens, as far as it matters to them. -/
inductive Following
  | nothing
  /-- Filler, a comma or an empty scalar. -/
  | gap
  | block
  | flow
  | other
deriving DecidableEq

namespace Following

def ofTree : Tree → Following
  | .mapping _ _ _ => block
  | .sequence _ _ _ => block
  | .flow _ _ _ _ => flow
  | .scalar t _ => if t.kind = .plain && t.text.isEmpty then gap else other
  | .block _ _ _ _ => other

def ofToken (t : Token) : Following :=
  match t.kind with
  | .space | .newline | .comma => gap
  | _ => other

/-- What follows the tokens before a key: the key, or else the first token behind it. -/
def ofKey (key : Option Tree) (link : Option (List Token)) : Following :=
  match key with
  | some k => ofTree k
  | none => ((link.bind List.head?).map ofToken).getD nothing

def ofValue (value : Option Tree) : Following := (value.map ofTree).getD nothing

end Following

/-- Where the tokens stand. -/
structure Surroundings where
  inFlow : Bool
  /-- The token that is expected once. -/
  indicator : TokenKind
  following : Following
  /-- The indentation of the collection. -/
  indent : Nat
  /-- A line has just begun. -/
  atLineStart : Bool

/-- What the tokens say. -/
structure Properties where
  comma : Bool
  indicator : Option Token
  anchor : Option Token
  tag : Option Token
  /-- There is a line end among the tokens. -/
  hasNewline : Bool
  /-- The last line end behind an anchor or a tag. -/
  newlineAfter : Option Token

namespace Properties

def empty : Properties := ⟨false, none, none, none, false, none⟩

/-- An anchor or a tag is there. -/
def isMarked (p : Properties) : Bool := p.anchor.isSome || p.tag.isSome

/-- The offset of the anchor or the tag, whichever comes first. -/
def start? (p : Properties) : Option Nat :=
  match p.anchor, p.tag with
  | some a, some t => some (min a.offset t.offset)
  | some a, none => some a.offset
  | none, some t => some t.offset
  | none, none => none

/-- The offset of the anchor or the tag, whichever comes last. -/
def last? (p : Properties) : Option Nat :=
  match p.anchor, p.tag with
  | some a, some t => some (max a.offset t.offset)
  | some a, none => some a.offset
  | none, some t => some t.offset
  | none, none => none

/-- What has been read of the tokens. -/
structure Reading where
  properties : Properties
  atLineStart : Bool
  /-- White space stands before the next token. -/
  spaced : Bool
  /-- The last token was an anchor or a tag. -/
  needsSpace : Bool
  /-- The last token is a space with a tab that could be indentation. -/
  tab : Option Token

/-- A token behind an anchor or a tag, or behind a tab. -/
def follows (r : Reading) (t : Token) : Bool :=
  (!r.needsSpace || t.kind == .space || t.kind == .newline || t.kind == .comma)
    && (r.tab.isNone || !r.atLineStart || t.kind == .comment || t.kind == .newline)

/-- Reads a token. -/
def read (s : Surroundings) (r : Reading) (t : Token) : Option Reading :=
  let p := r.properties
  if !follows r t then none
  else if t.kind = s.indicator then
    if p.isMarked || p.indicator.isSome then none
    else
      let opens := s.indicator == .itemMark || s.indicator == .keyMark
      some ⟨{ p with indicator := some t }, opens, false, false, none⟩
  else
    match t.kind with
    | .space =>
      let matters := !s.inFlow && (s.indicator != .documentStart || s.following != .flow)
      let tab := if matters && t.text.any (· == unit '\t') then some t else none
      some { r with spaced := true, needsSpace := false, tab := tab }
    | .comment =>
      if r.spaced then some { r with atLineStart := false, needsSpace := false, tab := none }
      else none
    | .newline =>
      let newlineAfter := if p.isMarked then some t else p.newlineAfter
      some ⟨{ p with hasNewline := true, newlineAfter := newlineAfter }, true, true, false, none⟩
    | .anchor =>
      if p.anchor.isSome then none
      else some ⟨{ p with anchor := some t }, false, false, true, none⟩
    | .tag =>
      if p.tag.isSome then none
      else some ⟨{ p with tag := some t }, false, false, true, none⟩
    | .comma =>
      if s.inFlow && !p.comma then some ⟨{ p with comma := true }, false, false, false, none⟩
      else none
    | _ => none

/-- The end of the tokens fits what follows. -/
def endsWell (s : Surroundings) (r : Reading) : Bool :=
  (!r.needsSpace || s.following == .nothing || s.following == .gap)
    && !(r.tab.any fun t => (r.atLineStart && t.indent ≤ s.indent) || s.following == .block)

/-- The properties that the tokens state. -/
def ofTokens (s : Surroundings) (ts : List Token) : Option Properties := do
  let r ← ts.foldlM (read s) ⟨empty, s.atLineStart, s.atLineStart, false, none⟩
  if endsWell s r then some r.properties else none

end Properties

/-- Only filler stands behind a value, and white space in front of a comment if that is asked
for. -/
def isTail (spacing : Bool) (ts : List Token) : Bool :=
  let rec check (spaced : Bool) : List Token → Bool
    | [] => true
    | t :: r =>
      match t.kind with
      | .space | .newline => check true r
      | .comment => (spaced || !spacing) && check spaced r
      | _ => false
  check false ts

end RequestCompiler.Yaml
