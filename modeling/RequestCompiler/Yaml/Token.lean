import RequestCompiler.Text

/-!
# Tokens of a YAML text

A YAML text is a sequence of tokens that leaves nothing out: spaces, line ends and comments
are tokens too. A token knows its offset and its indentation, which is the width of the spaces
and of the block indicators (`-`, `?`, `:`) before the first other token of its line.
-/

namespace RequestCompiler.Yaml

/-- What a token is. -/
inductive TokenKind
  | byteOrderMark
  /-- A document begins here; the token has no text. -/
  | content
  /-- Three hyphens at the start of a line. -/
  | documentStart
  /-- Three dots at the start of a line. -/
  | documentEnd
  | directive
  | space
  | comment
  | newline
  | anchor
  | tag
  | aliasMark
  | plain
  | singleQuoted
  | doubleQuoted
  /-- The indicator of a block scalar with its modifiers. -/
  | blockHeader
  /-- The lines of a block scalar. -/
  | blockContent
  /-- The hyphen before an item of a block sequence. -/
  | itemMark
  /-- The question mark before an explicit key. -/
  | keyMark
  /-- The colon before a value. -/
  | valueMark
  | mapOpen
  | mapClose
  | sequenceOpen
  | sequenceClose
  | comma
deriving DecidableEq, Repr

/-- A token without its place. -/
abbrev Lexeme := TokenKind × Text

/-- A token at its place. -/
structure Token where
  kind : TokenKind
  text : Text
  offset : Nat
  indent : Nat
deriving Repr

namespace TokenKind

/-- A space, a comment or a line end. -/
def isFiller : TokenKind → Bool
  | space | comment | newline => true
  | _ => false

/-- One of the three block indicators. -/
def isBlockMark : TokenKind → Bool
  | itemMark | keyMark | valueMark => true
  | _ => false

end TokenKind

namespace Token

/-- The place after a token. -/
def stop (t : Token) : Nat := t.offset + t.text.length

/-- Some token of the list is of a kind. -/
def anyOf (kind : TokenKind) (ts : List Token) : Bool := ts.any fun t => t.kind == kind

/-- The tokens hold nothing but spaces, comments and line ends. -/
def allFiller (ts : List Token) : Bool := ts.all fun t => t.kind.isFiller

end Token

/-- Where the next token stands: its offset, its indentation, and whether only spaces and
block indicators precede it in its line. -/
structure Place where
  offset : Nat
  indent : Nat
  atLineStart : Bool

namespace Place

/-- The first place of a text. -/
def start : Place := ⟨0, 0, true⟩

/-- The place after a token. -/
def after (p : Place) (l : Lexeme) : Place :=
  let offset := p.offset + l.2.length
  let width := if p.atLineStart then l.2.length else 0
  match l.1 with
  | .newline | .blockContent => ⟨offset, 0, true⟩
  | .space =>
    ⟨offset, if l.2.head? == some (unit ' ') then p.indent + width else p.indent, p.atLineStart⟩
  | .itemMark | .keyMark | .valueMark => ⟨offset, p.indent + width, p.atLineStart⟩
  | .content => p
  | _ => ⟨offset, p.indent, false⟩

end Place

/-- The lexemes at their places, the first one at `p`. -/
def placed (p : Place) : List Lexeme → List Token
  | [] => []
  | l :: r => ⟨l.1, l.2, p.offset, p.indent⟩ :: placed (p.after l) r

end RequestCompiler.Yaml
