import RequestCompiler.Yaml.Scalar

/-!
# Block scalars

The content of a block scalar is its lines without their common indentation. A literal scalar
keeps them as they are. A folded one joins neighbouring lines with a space, but leaves alone
lines that are indented further. The header says what happens to the line ends at the end: one is
kept, or none, or all.
-/

namespace RequestCompiler.Yaml

/-- What happens to the line ends at the end. -/
inductive Chomping
  | clip
  | strip
  | keep
deriving DecidableEq, Repr

/-- The header of a block scalar; `indent` is zero if the first line decides. -/
structure BlockHeader where
  folded : Bool
  chomping : Option Chomping
  indent : Nat
deriving DecidableEq, Repr

namespace BlockHeader

/-- The header with a modifier more: at most one sign and one digit. -/
def modify? (h : BlockHeader) (u : UInt16) : Option BlockHeader :=
  if h.chomping.isNone && u == unit '-' then some { h with chomping := some .strip }
  else if h.chomping.isNone && u == unit '+' then some { h with chomping := some .keep }
  else if h.indent = 0 ∧ unit '1' ≤ u ∧ u ≤ unit '9' then
    some { h with indent := u.toNat - 48 }
  else none

def ofText? : Text → Option BlockHeader
  | [] => none
  | mark :: modifiers =>
    modifiers.foldlM modify? ⟨mark == unit '>', none, 0⟩

end BlockHeader

/-- A line: the number of its leading spaces, and the rest. -/
structure BlockLine where
  spaces : Nat
  content : Text
deriving DecidableEq, Repr

namespace BlockLine

def ofText (t : Text) : BlockLine := ⟨countSpaces t, t.drop (countSpaces t)⟩

/-- The lines of a content. A carriage return at the end belongs to the line end. -/
def ofContent (content : Text) : List BlockLine :=
  if content.isEmpty then [] else (content.splitAt (unit '\n')).map ofText

def isBlank (l : BlockLine) : Bool := l.content.isEmpty || l.content == [unit '\r']

/-- The content without the carriage return of the line end. -/
def body (l : BlockLine) : Text :=
  if l.content.getLast? == some (unit '\r') then l.content.dropLast else l.content

/-- The spaces beyond an indentation. -/
def extra (l : BlockLine) (indent : Nat) : Text := Text.repeated (l.spaces - indent) ' '

end BlockLine

/-- The indentation of the content, found in its lines up to the first that is not blank.
`none` if that line is indented less than a blank one before it or than the header says, or not
at all inside of a collection. -/
def contentIndent? (stated atRoot : Bool) (indent : Nat) : List BlockLine → Option Nat
  | [] => some indent
  | l :: r =>
    if l.isBlank then
      contentIndent? stated atRoot (if stated then indent else max indent l.spaces) r
    else if l.spaces < indent then none
    else
      let found := if stated then indent else l.spaces
      if found = 0 && !atRoot then none else some found

/-- The lines of a literal scalar. -/
def literalText (indent : Nat) (lines : List BlockLine) : Text :=
  Text.join [unit '\n'] (lines.map fun l => l.extra indent ++ l.body)

/-- The lines of a folded scalar, where `separator` goes before the next text and `further`
says that the last line was indented further. -/
def foldedText (indent : Nat) (separator : Text) (further : Bool) : List BlockLine → Text
  | [] => []
  | l :: r =>
    let feed : Text := [unit '\n']
    if indent < l.spaces || l.body.head? == some (unit '\t') then
      let before :=
        if separator = [unit ' '] then feed
        else if !further && separator == feed then feed ++ feed
        else separator
      before ++ l.extra indent ++ l.body ++ foldedText indent feed true r
    else if l.body.isEmpty then
      if separator = feed then feed ++ foldedText indent separator further r
      else foldedText indent feed further r
    else separator ++ l.body ++ foldedText indent [unit ' '] false r

/-- The number of lines up to the last one that satisfies a test. -/
def countUpToLast (test : BlockLine → Bool) (lines : List BlockLine) : Nat :=
  (lines.reverse.dropWhile fun l => !test l).length

/-- The text of a block scalar. `indent` is the indentation of the collection that it is in. -/
def blockText (header : BlockHeader) (indent : Nat) (atRoot : Bool) (content : Text) :
    Option Text :=
  let lines := BlockLine.ofContent content
  let filled := countUpToLast (fun l => !l.isBlank) lines
  let feed : Text := [unit '\n']
  if filled = 0 then
    some <|
      if header.chomping = some .keep && !lines.isEmpty then
        Text.repeated (max 1 (lines.length - 1)) '\n'
      else []
  else do
    let trim ← contentIndent? (header.indent != 0) atRoot (indent + header.indent) lines
    let kept := max filled (countUpToLast (fun l => trim < l.spaces) lines)
    let blanks := lines.takeWhile BlockLine.isBlank
    let body := (lines.take kept).drop blanks.length
    if body.any fun l => !l.body.isEmpty && l.spaces < trim then none
    let start := blanks.flatMap fun l => l.extra trim ++ feed
    let text := start ++
      (if header.folded then foldedText trim [] false body else literalText trim body)
    match header.chomping with
    | some .strip => return text
    | some .keep =>
      let all := text ++ (lines.drop kept).flatMap fun l => feed ++ l.extra trim
      return if all.getLast? == some (unit '\n') then all else all ++ feed
    | _ => return text ++ feed

end RequestCompiler.Yaml
