import RequestCompiler.Json.Printer
import RequestCompiler.Yaml.Node
import RequestCompiler.Yaml.Scalar

/-!
# The flow text of a node

A collection that is a key becomes a text: the collection written in flow style. `Node.keyText`
is that text. A collection stands on one line if it fits, and its scalars keep the way in which
they were written as far as that is allowed inside of brackets.
-/

namespace RequestCompiler.Yaml

/-! ## Scalars -/

/-- The digits of a natural number in a base up to sixteen. -/
def radixDigits (base n : Nat) : Text := (Nat.toDigits base n).map unit

/-- A number in the base of its source, whose first two units name the base. -/
def radixText (base : Nat) (x : Binary64) (source : Text) : Text :=
  source.take 2 ++ radixDigits base (x.toInt?.getD 0).toNat

/-- Zeros after the point up to a count of places. A negative number gets none. -/
def padPlaces (places : Nat) (t : Text) : Text :=
  if places = 0 || t.head? == some (unit '-') then t
  else
    let pointed := if t.any (· == unit '.') then t else t ++ "."
    let present := (pointed.dropWhile (· != unit '.')).length - 1
    pointed ++ Text.repeated (places - present) '0'

/-- The text of a number that is not finite. -/
def specialText (x : Binary64) : Text :=
  if x.isNaN then ".nan" else if x.negative then "-.inf" else ".inf"

/-- A decimal number, with an exponent if its numeral has one, and otherwise with as many places
as the numeral if that ends with a zero. -/
def decimalText (n : Numeral) (x : Binary64) : Text :=
  if n.exponent.isSome then x.scientific
  else
    let places := n.fraction.getD []
    let kept := if places.getLast? = some (unit '0') then places.length else 0
    padPlaces kept (if x.isZero && x.negative then "-0" else x.text)

/-- A number, written in the notation of its source. -/
def numberText (source : Text) (x : Binary64) : Text :=
  if !x.isFinite then specialText x
  else if source.take 2 = Text.ofString "0x" then radixText 16 x source
  else if source.take 2 = Text.ofString "0o" then radixText 8 x source
  else
    match decimal? source with
    | some (n, _) => decimalText n x
    | none => x.text

/-- The text between single quotes, where a quote is written twice. -/
def singleQuote (t : Text) : Text :=
  let quote := unit '\x27'
  quote :: t.flatMap (fun u => if u = quote then [u, u] else [u]) ++ [quote]

/-- A control character other than the tab and the line feed. -/
def isControl (u : UInt16) : Bool :=
  (u < 0x20 && u != unit '\t' && u != unit '\n') || (0x7F ≤ u && u ≤ 0x9F)

/-- The text with the quotes that need no doubling or escape, or with double quotes. -/
def quotedText (t : Text) : Text :=
  if t.any (· == unit '"') && !t.any (· == unit '\x27') && !t.any isControl then singleQuote t
  else t.quote

/-- A unit that ends an item or a collection. -/
def isFlowIndicator (u : UInt16) : Bool :=
  u == unit '[' || u == unit ']' || u == unit '\x7b' || u == unit '\x7d' || u == unit ','

/-- A text that reads back as itself without quotes between brackets. -/
def isPlainSafe (t : Text) : Bool :=
  !t.any isFlowIndicator && !t.any isControl
    && !t.getLast?.any (fun u => u == unit '-' || u == unit ':')
    && (match coreValue t with
        | .str _ => true
        | _ => false)

/-- A scalar between brackets. -/
def scalarText (style : ScalarStyle) (t : Text) (value : Json) : Text :=
  match value, style with
  | .num x, _ => numberText t x
  | .str _, .plain => if isPlainSafe t then t else quotedText t
  | .str _, .singleQuoted =>
    if t.any isControl || t.any (· == unit '\n') then t.quote else singleQuote t
  | .str _, .doubleQuoted => t.quote
  | .str _, .block => quotedText t
  | _, _ => t

/-! ## Collections -/

/-- The longest line that a collection may fill. -/
def flowWidth : Nat := 80

/-- A line end and a margin. -/
def flowBreak (margin : Nat) : Text := unit '\n' :: Text.repeated margin ' '

/-- Items between brackets: on one line if no item has more lines than one and all of them fit,
and otherwise each on a line of its own. -/
def bracketed (opening closing : Char) (margin : Nat) (items : List Text) : Text :=
  if items.isEmpty then [unit opening, unit closing]
  else
    let broken := items.any fun t => t.any (· == unit '\n')
    if broken || flowWidth < items.flatten.length + 3 * items.length + 1 then
      let inner := flowBreak (margin + 2)
      unit opening :: inner ++ Text.join ("," ++ inner) items ++ flowBreak margin
        ++ [unit closing]
    else [unit opening, unit ' '] ++ Text.join ", " items ++ [unit ' ', unit closing]

namespace Node

/-- An anchor in front of what it names. -/
def anchored (anchor : Option Text) (t : Text) : Text :=
  match anchor with
  | some name => unit '&' :: name ++ unit ' ' :: t
  | none => t

/-- A key that needs a question mark in front of it. -/
def isMarkedKey : Node → Bool
  | scalar _ style _ _ => style = .block
  | _ => true

def isCollection : Node → Bool
  | sequence _ _ => true
  | mapping _ _ => true
  | _ => false

/-- A key without a value. -/
def loneKey (key : Node) (shown : Text) : Text :=
  if shown.isEmpty then "?" else if key.isMarkedKey then "? " ++ shown else shown

/-- A key and its value. A collection of several lines begins on a line of its own. -/
def keyAndValue (margin : Nat) (key value : Node) (shownKey shownValue : Text) : Text :=
  let gap : Text := if shownValue.isEmpty then [] else " "
  if key.isMarkedKey then "? " ++ shownKey ++ flowBreak margin ++ ":" ++ gap ++ shownValue
  else
    let below := value.isCollection && shownValue.any (· == unit '\n')
    shownKey ++ ":" ++ (if below then flowBreak (margin + 2) else gap) ++ shownValue

mutual

/-- The node in flow style. -/
def flowText (margin : Nat) : Node → Text
  | scalar anchor style t value => anchored anchor (scalarText style t value)
  | aliasOf name => unit '*' :: name
  | sequence anchor items =>
    anchored anchor (bracketed '[' ']' margin (flowItems (margin + 4) items))
  | mapping anchor pairs =>
    anchored anchor (bracketed '\x7b' '\x7d' margin (flowPairs (margin + 2) pairs))
termination_by structural n => n

def flowItems (margin : Nat) : List Node → List Text
  | [] => []
  | n :: r => flowText margin n :: flowItems margin r
termination_by structural ns => ns

def flowPairs (margin : Nat) : List (Node × Option Node) → List Text
  | [] => []
  | (key, none) :: r => loneKey key (flowText (margin + 2) key) :: flowPairs margin r
  | (key, some value) :: r =>
    keyAndValue margin key value (flowText (margin + 2) key) (flowText (margin + 2) value)
      :: flowPairs margin r
termination_by structural ps => ps

end

/-- The node without its anchor. -/
def withoutAnchor : Node → Node
  | scalar _ style t value => scalar none style t value
  | aliasOf name => aliasOf name
  | sequence _ items => sequence none items
  | mapping _ pairs => mapping none pairs

/-- The key that a node with a value is: the text of a scalar, nothing for null, and the flow
style of a collection. -/
def keyText (n : Node) : Json → Text
  | .null => []
  | .bool b => Json.boolText b
  | .num x => x.text
  | .str t => t
  | .arr _ => n.withoutAnchor.flowText 0
  | .obj _ => n.withoutAnchor.flowText 0

end Node

end RequestCompiler.Yaml
