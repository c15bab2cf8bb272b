import RequestCompiler.Yaml.Scalar

/-!
# Directives and tags

Directives stand before a document. A tag directive gives a handle a meaning, and a tag is
resolved by its handle. Directives that are unknown are ignored, and so are versions.
-/

namespace RequestCompiler.Yaml

/-- The meaning of each tag handle. -/
abbrev TagHandles := List (Text × Text)

namespace TagHandles

/-- The handle that always has a meaning. -/
def standard : TagHandles := [("!!", standardTag)]

/-- The words of a directive. -/
def directiveWords (line : Text) : List Text :=
  let spaced := line.trim.map fun u => if u = unit '\t' then unit ' ' else u
  (Text.splitAt (unit ' ') spaced).filter fun w => !w.isEmpty

def isDigits (t : Text) : Bool := !t.isEmpty && t.all Numeral.isDigit

/-- A version has two numbers with a point between them. -/
def isVersion (t : Text) : Bool :=
  match t.splitAt (unit '.') with
  | [major, minor] => isDigits major && isDigits minor
  | _ => false

/-- The handles after a directive; `none` for a malformed one. -/
def addDirective (handles : TagHandles) (line : Text) : Option TagHandles :=
  match directiveWords line with
  | [] => some handles
  | name :: arguments =>
    if name = Text.ofString "%TAG" then
      match arguments with
      | [handle, meaning] => some ((handle, meaning) :: handles)
      | _ => none
    else if name = Text.ofString "%YAML" then
      match arguments with
      | [version] => if isVersion version then some handles else none
      | _ => none
    else some handles

/-- The handles that directives leave. -/
def ofDirectives (lines : List Text) : Option TagHandles := lines.foldlM addDirective standard

/-- The meaning of a handle. -/
def meaning? (handles : TagHandles) (handle : Text) : Option Text :=
  (handles.find? fun p => p.1 == handle).map (·.2)

/-- The units of a tag's suffix, with percent escapes replaced. -/
def unescapeSuffix : Text → Option (List UInt8)
  | [] => some []
  | u :: v :: w :: r =>
    if u = unit '%' then do
      let high ← Text.hexDigit? v
      let low ← Text.hexDigit? w
      return (high * 16 + low).toUInt8 :: (← unescapeSuffix r)
    else do return u.toUInt8 :: (← unescapeSuffix (v :: w :: r))
  | u :: r => if u = unit '%' then none else do return u.toUInt8 :: (← unescapeSuffix r)

/-- The tag without percent escapes, which have to be UTF-8. -/
def decodeSuffix (t : Text) : Option Text := do
  let bytes ← unescapeSuffix t
  let s ← String.fromUTF8? ⟨bytes.toArray⟩
  return s

/-- The full name of a tag; `none` for a tag that has no name. -/
def resolve (handles : TagHandles) (source : Text) : Option Text :=
  let mark := unit '!'
  if source = [mark] then some source
  else if source[1]? = some (unit '<') then
    let name := (source.drop 2).dropLast
    if source.getLast? = some (unit '>') && name != [mark] && name != [mark, mark] then some name
    else none
  else
    let suffix := (source.reverse.takeWhile (· != mark)).reverse
    let handle := source.take (source.length - suffix.length)
    if suffix.isEmpty then none
    else
      match handles.meaning? handle with
      | some meaning => (decodeSuffix suffix).map (meaning ++ ·)
      | none => if handle = [mark] then some source else none

end TagHandles

end RequestCompiler.Yaml
