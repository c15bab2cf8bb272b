import RequestCompiler.Yaml.Token

/-!
# Cutting a YAML text into tokens

The lexer knows what it must to tell the tokens apart: how deep it is in flow collections,
and how far a scalar's next line has to be indented to belong to it. `lex` answers `none` where
no reading is left: a flow collection that is less indented than its block, a bracket that
closes nothing, a block indicator in a flow collection, text after the header of a block
scalar.
-/

namespace RequestCompiler.Yaml

def isSpaceOrTab (u : UInt16) : Bool := u == unit ' ' || u == unit '\t'

def isGap (u : UInt16) : Bool :=
  u == unit ' ' || u == unit '\t' || u == unit '\n' || u == unit '\r'

/-- White space or the end of the text comes next. -/
def startsWithGap (t : Text) : Bool := t.head?.all isGap

/-- One of the five characters that structure a flow collection. -/
def isFlowMark (u : UInt16) : Bool :=
  u == unit ',' || u == unit '[' || u == unit ']' || u == unit '{' || u == unit '}'

/-- A flow mark comes next. -/
def startsWithFlowMark (t : Text) : Bool := t.head?.any isFlowMark

/-- A line end or the end of the text comes next. -/
def atLineEnd (t : Text) : Bool :=
  match t with
  | [] => true
  | u :: r => u == unit '\n' || (u == unit '\r' && r.head? == some (unit '\n'))

/-- The text up to the next line end. -/
def untilLineEnd : Text → Text
  | [] => []
  | u :: r => if atLineEnd (u :: r) then [] else u :: untilLineEnd r

/-- Three equal marks, and then white space or the end. -/
def startsWithMarker (marker : Text) (t : Text) : Bool :=
  marker.isPrefixOf t && startsWithGap (t.drop 3)

def startMarker : Text := "---"

def endMarker : Text := "..."

/-- The line that comes next can belong to a scalar whose lines have at least `indent` spaces.
Blank lines can; without an indentation, so can all lines but a document marker. -/
def continues (indent : Nat) (t : Text) : Bool :=
  if indent = 0 then !startsWithMarker startMarker t && !startsWithMarker endMarker t
  else
    let rest := t.dropWhile (· == unit ' ')
    (atLineEnd rest && !rest.isEmpty) || indent ≤ t.length - rest.length

/-- The number of spaces at the start. -/
def countSpaces (t : Text) : Nat := (t.takeWhile (· == unit ' ')).length

/-- What the lexer knows. -/
structure Lexer where
  rest : Text
  /-- The tokens so far, the last one first. -/
  tokens : List Lexeme
  /-- The number of open flow collections. -/
  depth : Nat
  /-- In a flow collection, the last token can be a key that needs no space after its colon. -/
  afterKey : Bool
  /-- The indentation of the line. -/
  lineIndent : Nat
  /-- The least indentation of a scalar's next line. -/
  scalarIndent : Nat

/-- What the lexer does next. -/
inductive Mode
  | stream
  | document
  | flow

abbrev Lexing := StateT Lexer Option

namespace Lexing

/-- The next `n` units are a token, unless `n` is zero. -/
def take (kind : TokenKind) (n : Nat) : Lexing Nat := do
  modify fun l =>
    if n = 0 then l
    else { l with rest := l.rest.drop n, tokens := (kind, l.rest.take n) :: l.tokens }
  return n

/-- A scalar token, which may be empty. -/
def takeScalar (kind : TokenKind) (n : Nat) : Lexing Unit :=
  modify fun l => { l with rest := l.rest.drop n, tokens := (kind, l.rest.take n) :: l.tokens }

/-- The units that satisfy a test are a token. -/
def takeWhile (kind : TokenKind) (test : UInt16 → Bool) : Lexing Nat := do
  take kind ((← get).rest.takeWhile test).length

def takeIndent : Lexing Nat := takeWhile .space (· == unit ' ')

def takeSpaces : Lexing Nat := takeWhile .space isSpaceOrTab

def takeNewline : Lexing Nat := do
  let rest := (← get).rest
  if rest.head? == some (unit '\n') then take .newline 1
  else if atLineEnd rest && !rest.isEmpty then take .newline 2
  else return 0

/-- What is left of the line is a comment. -/
def takeComment : Lexing Nat := do take .comment (untilLineEnd (← get).rest).length

/-- The character that comes next in the line, if there is one. -/
def next? : Lexing (Option UInt16) := do
  let rest := (← get).rest
  return if atLineEnd rest then none else rest.head?

def fail {α : Type} : Lexing α := fun _ => none

/-! ## Properties and indicators -/

def endsName (u : UInt16) : Bool := isGap u || isFlowMark u

/-- A character of a tag's suffix. -/
def isTagUnit (u : UInt16) : Bool :=
  (unit '0' ≤ u && u ≤ unit '9') || (unit 'a' ≤ u && u ≤ unit 'z')
    || (unit 'A' ≤ u && u ≤ unit 'Z') || (Text.ofString "-#;/?:@&=+$_.!~*'()").any (· == u)

/-- The length of a tag after its exclamation mark. -/
def tagLength : Text → Nat
  | u :: v :: w :: r =>
    if isTagUnit u then tagLength (v :: w :: r) + 1
    else if u = unit '%' ∧ (Text.hexDigit? v).isSome ∧ (Text.hexDigit? w).isSome then
      tagLength r + 3
    else 0
  | t => (t.takeWhile isTagUnit).length

/-- The length of a tag. A tag in angle brackets ends with its bracket. -/
def wholeTagLength (t : Text) : Nat :=
  if t[1]? = some (unit '<') then
    let name := (t.drop 2).takeWhile fun u => !isGap u && u != unit '>'
    let closed := (t.drop (2 + name.length)).head? == some (unit '>')
    2 + name.length + (if closed then 1 else 0)
  else 1 + tagLength (t.drop 1)

/-- Anchors, tags and block indicators, as many as follow each other. -/
def takeMarks : Nat → Lexing Unit
  | 0 => return
  | fuel + 1 => do
    let l ← get
    let inFlow := 0 < l.depth
    match l.rest with
    | [] => return
    | u :: r =>
      if u = unit '!' then
        let _ ← take .tag (wholeTagLength l.rest)
        let _ ← takeSpaces
        takeMarks fuel
      else if u = unit '&' then
        let _ ← takeWhile .anchor fun v => !endsName v
        let _ ← takeSpaces
        takeMarks fuel
      else if u = unit '-' ∨ u = unit '?' ∨ u = unit ':' then
        if startsWithGap r || (inFlow && startsWithFlowMark r) then
          if inFlow then modify fun l => { l with afterKey := false }
          else modify fun l => { l with scalarIndent := l.lineIndent + 1 }
          if u = unit '-' then
            if inFlow then fail
            let _ ← take .itemMark 1
          else if u = unit '?' then
            let _ ← take .keyMark 1
          else
            let _ ← take .valueMark 1
          let _ ← takeSpaces
          takeMarks fuel
        else return
      else return

/-! ## Starts of lines -/

/-- Block indicators at the start of a line; each of them indents what follows. -/
def takeBlockMarks : Nat → Lexing Unit
  | 0 => return
  | fuel + 1 => do
    let l ← get
    match l.rest with
    | [] => return
    | u :: r =>
      let kind? : Option TokenKind :=
        if u = unit '-' then some .itemMark
        else if u = unit '?' then some .keyMark
        else if u = unit ':' then some .valueMark
        else none
      match kind? with
      | none => return
      | some kind =>
        if startsWithGap r then
          let _ ← take kind 1
          let n ← takeSpaces
          modify fun l =>
            { l with scalarIndent := l.lineIndent + 1, lineIndent := l.lineIndent + 1 + n }
          takeBlockMarks fuel
        else return

/-- The start of a line in a document. -/
def lineStart : Lexing Mode := do
  let rest := (← get).rest
  if startsWithMarker startMarker rest then
    let _ ← take .documentStart 3
    modify fun l => { l with lineIndent := 0, scalarIndent := 0 }
    return .document
  else if startsWithMarker endMarker rest then
    let _ ← take .documentEnd 3
    modify fun l => { l with lineIndent := 0, scalarIndent := 0 }
    return .stream
  else
    let n ← takeIndent
    modify fun l =>
      { l with
        lineIndent := n
        scalarIndent :=
          if n < l.scalarIndent && !startsWithGap (l.rest.drop 1) then n else l.scalarIndent }
    takeBlockMarks rest.length
    return .document

/-! ## Scalars -/

/-- The length of the plain scalar at the start of a text. `n` units have been looked at,
and the scalar has `best` units at least. -/
def plainLength (inFlow : Bool) (indent : Nat) (n best : Nat) : Text → Nat
  | [] => best
  | u :: r =>
    if u = unit ':' then
      if startsWithGap r || (inFlow && startsWithFlowMark r) then best
      else plainLength inFlow indent (n + 1) (n + 1) r
    else if u = unit '\r' ∧ r.head? = some (unit '\n') then plainLength inFlow indent (n + 1) best r
    else if isGap u then
      let reached := if u = unit '\r' then n + 1 else best
      if r.head? == some (unit '#') || (inFlow && startsWithFlowMark r)
          || (u == unit '\n' && !continues indent r) then reached
      else plainLength inFlow indent (n + 1) reached r
    else if inFlow && isFlowMark u then best
    else plainLength inFlow indent (n + 1) (n + 1) r

/-- A plain scalar. -/
def takePlain : Lexing Unit := do
  let l ← get
  takeScalar .plain (plainLength (0 < l.depth) l.scalarIndent 0 0 l.rest)

/-- The length of a quoted scalar after its opening quote, the closing quote included; `none`
without a closing quote. A double quote is escaped by a backslash, a single one by another. -/
def quotedLength? (quote : UInt16) : Text → Option Nat
  | [] => none
  | [u] => if u = quote then some 1 else none
  | u :: v :: r =>
    if quote = unit '"' then
      if u = unit '\\' then (quotedLength? quote r).map (· + 2)
      else if u = quote then some 1
      else (quotedLength? quote (v :: r)).map (· + 1)
    else if u = quote then
      if v = quote then (quotedLength? quote r).map (· + 2) else some 1
    else (quotedLength? quote (v :: r)).map (· + 1)

/-- At most `length` units, up to a line end after which the line cannot belong to a scalar. -/
def cutAtUnindent (indent : Nat) : Nat → Text → Nat
  | 0, _ => 0
  | _, [] => 0
  | length + 1, u :: r =>
    let nextLine? : Option Text :=
      if u = unit '\n' then some r
      else if u = unit '\r' ∧ r.head? = some (unit '\n') then some (r.drop 1)
      else none
    if nextLine?.any fun line => !continues indent line then 0
    else cutAtUnindent indent length r + 1

/-- A quoted scalar. Without a closing quote it takes all of the text, and before a line that
is indented too little it ends. -/
def takeQuoted (kind : TokenKind) : Lexing Unit := do
  let l ← get
  match l.rest with
  | [] => return
  | quote :: r =>
    takeScalar kind <|
      match quotedLength? quote r with
      | none => l.rest.length
      | some n => cutAtUnindent l.scalarIndent (n + 1) l.rest

/-! ## Block scalars -/

/-- The lines of a text, each with its line feed. -/
def rawLines : Text → List Text
  | [] => []
  | u :: r =>
    if u = unit '\n' then [u] :: rawLines r
    else
      match rawLines r with
      | [] => [[u]]
      | line :: lines => (u :: line) :: lines

/-- The line without its line end. -/
def lineContent (line : Text) : Text :=
  let body := if line.getLast? == some (unit '\n') then line.dropLast else line
  if body.getLast? == some (unit '\r') then body.dropLast else body

/-- A line of spaces that a line feed ends. -/
def isBlankLine (line : Text) : Bool :=
  line.getLast? == some (unit '\n') && (lineContent line).all (· == unit ' ')

/-- The first non-space of a line is a tab. -/
def startsWithTab (line : Text) : Bool :=
  (line.dropWhile (· == unit ' ')).head? == some (unit '\t')

/-- The modifiers of a block scalar's header that the lexer needs: whether trailing lines are
kept, and the stated indentation. -/
def blockModifiers (keep : Bool) (stated : Option Nat) : Text → Bool × Option Nat
  | [] => (keep, stated)
  | u :: r =>
    if u = unit '+' then blockModifiers true stated r
    else if unit '1' ≤ u ∧ u ≤ unit '9' then blockModifiers keep (some (u.toNat - 48)) r
    else if u = unit '-' then blockModifiers keep stated r
    else (keep, stated)

/-- The content without the blank lines at its end that are no wider than its first line's
indentation. The first line stays. -/
def dropTrailing (indent : Nat) : List Text → List Text
  | [] => []
  | line :: lines =>
    line :: (lines.reverse.dropWhile fun l =>
      (lineContent l).all (· == unit ' ') && (lineContent l).length ≤ indent).reverse

/-- The content of a block scalar, after its header's line. -/
def takeBlockContent (keep : Bool) (stated : Option Nat) : Lexing Unit := do
  let l ← get
  let lines := rawLines l.rest
  let blanks := lines.takeWhile isBlankLine
  let others := lines.dropWhile isBlankLine
  let first := countSpaces (others.headD [])
  let enough := l.scalarIndent ≤ first
  let indent :=
    if enough then
      match stated with
      | none => first
      | some n => n - 1 + (if l.scalarIndent = 0 then 1 else l.scalarIndent)
    else l.scalarIndent
  let body := if enough then others.takeWhile (continues indent) else []
  if ((others.drop body.length).head?).any startsWithTab then fail
  let content := blanks ++ body
  let kept := if keep then content else dropTrailing first content
  takeScalar .blockContent kept.flatten.length
  modify fun l => { l with scalarIndent := indent }

/-- A block scalar with its header. -/
def takeBlock : Lexing Mode := do
  let modifiers := blockModifiers false none ((← get).rest.drop 1)
  let _ ← takeWhile .blockHeader fun u => !isGap u && u != unit '#'
  let _ ← takeSpaces
  match ← next? with
  | none => pure ()
  | some u => if u = unit '#' then let _ ← takeComment else fail
  let _ ← takeNewline
  takeBlockContent modifiers.1 modifiers.2
  lineStart

/-! ## Steps -/

/-- The length of a directive in its line: up to a comment, without the spaces at its end. -/
def directiveLength (line : Text) : Nat :=
  let rec body : Text → Text
    | [] => []
    | [u] => [u]
    | u :: v :: r => if isSpaceOrTab u && v == unit '#' then [] else u :: body (v :: r)
  ((body line).reverse.dropWhile isSpaceOrTab).length

/-- A step outside of a document. -/
def streamStep : Lexing Mode := do
  if (← get).rest.head? == some 0xFEFF then
    let _ ← take .byteOrderMark 1
  let rest := (← get).rest
  if rest.head? == some (unit '%') then
    let _ ← take .directive (directiveLength (untilLineEnd rest))
    let _ ← takeSpaces
    let _ ← takeComment
    let _ ← takeNewline
    return .stream
  let afterSpaces := rest.dropWhile isSpaceOrTab
  if atLineEnd afterSpaces || afterSpaces.head? == some (unit '#') then
    let _ ← takeSpaces
    let _ ← takeComment
    let _ ← takeNewline
    return .stream
  takeScalar .content 0
  lineStart

/-- A step in a document, outside of flow collections. -/
def documentStep : Lexing Mode := do
  let _ ← takeSpaces
  takeMarks (← get).rest.length
  match ← next? with
  | none =>
    let _ ← takeNewline
    lineStart
  | some u =>
    if u = unit '#' then
      let _ ← takeComment
      let _ ← takeNewline
      lineStart
    else if u = unit '{' ∨ u = unit '[' then
      let _ ← take (if u = unit '{' then .mapOpen else .sequenceOpen) 1
      modify fun l => { l with depth := 1, afterKey := false }
      return .flow
    else if u = unit '}' ∨ u = unit ']' then fail
    else if u = unit '*' then
      let _ ← takeWhile .aliasMark fun v => !endsName v
      return .document
    else if u = unit '"' then
      takeQuoted .doubleQuoted
      return .document
    else if u = unit '\x27' then
      takeQuoted .singleQuoted
      return .document
    else if u = unit '|' ∨ u = unit '>' then takeBlock
    else
      takePlain
      return .document

/-- Line ends and spaces; the indentation of the last line that started. -/
def takeFlowGaps : Nat → Option Nat → Lexing (Option Nat)
  | 0, indent => return indent
  | fuel + 1, indent => do
    if 0 < (← takeNewline) then
      let n ← takeIndent
      modify fun l => { l with lineIndent := n }
      let _ ← takeSpaces
      takeFlowGaps fuel (some n)
    else if 0 < (← takeSpaces) then takeFlowGaps fuel indent
    else return indent

/-- Commas and the spaces after them. -/
def takeCommas : Nat → Lexing Unit
  | 0 => return
  | fuel + 1 => do
    if (← get).rest.head? == some (unit ',') then
      let _ ← take .comma 1
      let _ ← takeSpaces
      modify fun l => { l with afterKey := false }
      takeCommas fuel

/-- A line of a flow collection that starts at `indent` may do so. A closing bracket may stand
under the block that the outermost collection is in. -/
def flowLineAllowed (l : Lexer) (indent : Nat) : Bool :=
  let line := untilLineEnd l.rest
  let outside :=
    (indent < l.scalarIndent && line.head? != some (unit '#'))
      || (indent == 0 && (startsWithMarker startMarker line || startsWithMarker endMarker line))
  let closing :=
    indent + 1 == l.scalarIndent && l.depth == 1
      && (line.head? == some (unit ']') || line.head? == some (unit '}'))
  !outside || closing

/-- A step in a flow collection. -/
def flowStep : Lexing Mode := do
  let indent ← takeFlowGaps (← get).rest.length none
  let l ← get
  if indent.any fun n => !flowLineAllowed l n then fail
  takeCommas (← get).rest.length
  takeMarks (← get).rest.length
  match ← next? with
  | none => return .flow
  | some u =>
    if u = unit '#' then
      let _ ← takeComment
      return .flow
    else if u = unit '{' ∨ u = unit '[' then
      let _ ← take (if u = unit '{' then .mapOpen else .sequenceOpen) 1
      modify fun l => { l with depth := l.depth + 1, afterKey := false }
      return .flow
    else if u = unit '}' ∨ u = unit ']' then
      let _ ← take (if u = unit '}' then .mapClose else .sequenceClose) 1
      modify fun l => { l with depth := l.depth - 1, afterKey := true }
      return if (← get).depth = 0 then .document else .flow
    else if u = unit '*' then
      let _ ← takeWhile .aliasMark fun v => !endsName v
      return .flow
    else if u = unit '"' then
      modify fun l => { l with afterKey := true }
      takeQuoted .doubleQuoted
      return .flow
    else if u = unit '\x27' then
      modify fun l => { l with afterKey := true }
      takeQuoted .singleQuoted
      return .flow
    else
      let l ← get
      let rest := l.rest.drop 1
      modify fun l => { l with afterKey := false }
      if u = unit ':' && (l.afterKey || startsWithGap rest || rest.head? == some (unit ',')) then
        let _ ← take .valueMark 1
        let _ ← takeSpaces
        return .flow
      else
        takePlain
        return .flow

def steps : Nat → Mode → Lexing Unit
  | 0, _ => fail
  | fuel + 1, mode => do
    if (← get).rest.isEmpty then return
    let next ←
      match mode with
      | .stream => streamStep
      | .document => documentStep
      | .flow => flowStep
    steps fuel next

end Lexing

/-- The tokens of a text. Each step but one that opens a document takes a unit at least, so
that twice the length of the text bounds their number. -/
def lex (t : Text) : Option (List Lexeme) :=
  match Lexing.steps (2 * t.length + 2) .stream ⟨t, [], 0, false, 0, 0⟩ with
  | some (_, l) => some l.tokens.reverse
  | none => none

end RequestCompiler.Yaml
