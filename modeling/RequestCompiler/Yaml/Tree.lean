import RequestCompiler.Yaml.Token

/-!
# The shape of a YAML document

A tree groups the tokens of a document into scalars and collections and keeps every token
that is not part of a scalar. An entry of a collection has up to four parts: the tokens before
its key, the key, the tokens between key and value with the colon among them, and the value.
An item of a sequence has its value alone.
-/

namespace RequestCompiler.Yaml

/-- An entry of a collection whose keys and values are of type `τ`. -/
structure Entry (τ : Type) where
  /-- The tokens in front. -/
  lead : List Token
  key : Option τ
  /-- The tokens after the key. An entry that has this part has a key, which may be empty. -/
  link : Option (List Token)
  value : Option τ
  /-- A question mark stands before the key of a block mapping's entry. -/
  explicit : Bool

namespace Entry

/-- An entry of which only the tokens in front are there. -/
def ofLead {τ : Type} (lead : List Token) : Entry τ := ⟨lead, none, none, none, false⟩

/-- An entry that begins with a key. -/
def ofKey {τ : Type} (lead : List Token) (key : Option τ) (link : List Token) : Entry τ :=
  ⟨lead, key, some link, none, false⟩

end Entry

/-- A scalar or a collection. -/
inductive Tree
  /-- A scalar in one piece or an alias, and the tokens after it. -/
  | scalar (token : Token) (after : List Token)
  /-- A block scalar: its header, the tokens after the header, the indentation of the
  collection that it is in, and its content. -/
  | block (header : Token) (after : List Token) (indent : Nat) (content : Text)
  | mapping (offset indent : Nat) (entries : List (Entry Tree))
  | sequence (offset indent : Nat) (entries : List (Entry Tree))
  /-- A flow collection: its opening bracket, its indentation, and the tokens from its
  closing bracket on. -/
  | flow (opening : Token) (indent : Nat) (entries : List (Entry Tree)) (closing : List Token)

namespace Tree

def offset : Tree → Nat
  | scalar t _ => t.offset
  | block t _ _ _ => t.offset
  | mapping o _ _ => o
  | sequence o _ _ => o
  | flow t _ _ _ => t.offset

def indent : Tree → Nat
  | scalar t _ => t.indent
  | block _ _ i _ => i
  | mapping _ i _ => i
  | sequence _ i _ => i
  | flow _ i _ _ => i

/-- The tokens behind a scalar or a flow collection, if there are any. -/
def after? : Tree → Option (List Token)
  | scalar _ [] => none
  | scalar _ after => some after
  | flow _ _ _ closing => some closing
  | _ => none

/-- The tree with more tokens behind it. -/
def addAfter (ts : List Token) : Tree → Tree
  | scalar t after => scalar t (after ++ ts)
  | flow o i entries closing => flow o i entries (closing ++ ts)
  | t => t

/-- The last token behind the tree is a comment. -/
def endsInComment (t : Tree) : Bool :=
  (t.after?.bind List.getLast?).any fun token => token.kind == .comment

/-- A scalar in one piece, an alias or a flow collection. -/
def isInline : Tree → Bool
  | scalar _ _ => true
  | flow _ _ _ _ => true
  | _ => false

/-- A mapping or a sequence in block style. -/
def isBlockCollection : Tree → Bool
  | mapping _ _ _ => true
  | sequence _ _ _ => true
  | _ => false

def isBlockScalar : Tree → Bool
  | block _ _ _ _ => true
  | _ => false

def isMapping : Tree → Bool
  | mapping _ _ _ => true
  | _ => false

def isSequence : Tree → Bool
  | sequence _ _ _ => true
  | _ => false

end Tree

/-- A document: the tokens before its value, its value, and the tokens after. -/
structure DocumentTree where
  lead : List Token
  value : Option Tree
  after : List Token

end RequestCompiler.Yaml
