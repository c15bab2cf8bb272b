import RequestCompiler.Json
import RequestCompiler.Yaml.Token.Lexer

/-!
# Scalars in one piece

What a plain or quoted scalar stands for. Its lines are folded: spaces around a line end are
dropped, one line end becomes a space, and of several the first one is dropped. The words and
numerals of the core schema give a plain scalar another type than text.
-/

namespace RequestCompiler.Yaml

/-! ## Folding -/

def trimSpacesStart (t : Text) : Text := t.dropWhile isSpaceOrTab

def trimSpacesEnd (t : Text) : Text := (t.reverse.dropWhile isSpaceOrTab).reverse

/-- The lines after the first, each behind what separates it from the lines before. -/
def foldRest (separator : UInt16) : List Text → Text
  | [] => []
  | [last] => separator :: trimSpacesStart last
  | line :: r =>
    let content := trimSpacesEnd (trimSpacesStart line)
    if content.isEmpty then
      if separator = unit '\n' then separator :: foldRest separator r else foldRest (unit '\n') r
    else separator :: (content ++ foldRest (unit ' ') r)

/-- Folds lines into one. -/
def foldLines (t : Text) : Text :=
  match t.lines with
  | [] => []
  | [line] => line
  | first :: r => trimSpacesEnd first ++ foldRest (unit ' ') r

/-! ## Plain and single-quoted scalars -/

/-- A character that no plain scalar begins with. -/
def isReservedStart (u : UInt16) : Bool :=
  u == unit '\t' || u == unit ',' || u == unit '%' || u == unit '|' || u == unit '>'
    || u == unit '@' || u == 0x60

/-- The text of a plain scalar. -/
def plainText (source : Text) : Option Text :=
  if source.head?.any isReservedStart then none else some (foldLines source)

/-- Of two single quotes one is left. -/
def halveQuotes : Text → Text
  | u :: v :: r =>
    if u = unit '\x27' ∧ v = unit '\x27' then u :: halveQuotes r else u :: halveQuotes (v :: r)
  | t => t

/-- The source begins and ends with a quote. -/
def isClosed (quote : UInt16) (source : Text) : Bool :=
  2 ≤ source.length && source.getLast? == some quote

/-- The text of a single-quoted scalar. -/
def singleQuotedText (source : Text) : Option Text :=
  if isClosed (unit '\x27') source then
    some (halveQuotes (foldLines (source.drop 1).dropLast))
  else none

/-! ## Double-quoted scalars -/

/-- The character that a backslash and a character stand for. -/
def escaped? (u : UInt16) : Option UInt16 :=
  if u = unit '0' then some 0
  else if u = unit 'a' then some 7
  else if u = unit 'b' then some 8
  else if u = unit 'e' then some 27
  else if u = unit 'f' then some 12
  else if u = unit 'n' then some 10
  else if u = unit 'r' then some 13
  else if u = unit 't' ∨ u = unit '\t' then some 9
  else if u = unit 'v' then some 11
  else if u = unit 'N' then some 0x85
  else if u = unit '_' then some 0xA0
  else if u = unit 'L' then some 0x2028
  else if u = unit 'P' then some 0x2029
  else if u = unit ' ' ∨ u = unit '"' ∨ u = unit '/' ∨ u = unit '\\' then some u
  else none

/-- The number of hexadecimal digits after the letter of a numeric escape. -/
def escapeDigits? (u : UInt16) : Option Nat :=
  if u = unit 'x' then some 2
  else if u = unit 'u' then some 4
  else if u = unit 'U' then some 8
  else none

/-- The code point that so many hexadecimal digits name, and the rest. -/
def takePoint (digits : Nat) (t : Text) : Option (Text × Text) :=
  if t.length < digits then none
  else do
    let p ← Numeral.radixValue? 16 (t.take digits)
    if p ≤ 0x10FFFF then some (Text.ofPoint p, t.drop digits) else none

/-- The number of line feeds in the white space at the start, and the rest. -/
def skipGap : Text → Nat × Text
  | [] => (0, [])
  | u :: r =>
    if u = unit '\n' then ((skipGap r).1 + 1, (skipGap r).2)
    else if isSpaceOrTab u ∨ (u = unit '\r' ∧ r.head? = some (unit '\n')) then skipGap r
    else (0, u :: r)

/-- What the units of a double-quoted scalar up to its closing quote stand for, which is the
last unit. -/
def unescape : Nat → Text → Option Text
  | 0, _ => some []
  | _, [] => some []
  | _, [_] => some []
  | n + 1, u :: v :: r =>
    if u = unit '\r' ∧ v = unit '\n' then unescape n (v :: r)
    else if u = unit '\n' then
      let (ends, rest) := skipGap (v :: r)
      let fold := if ends = 0 then [unit ' '] else Text.repeated ends '\n'
      (unescape n rest).map (fold ++ ·)
    else if u = unit '\\' then
      match escaped? v, escapeDigits? v with
      | some c, _ => (unescape n r).map (c :: ·)
      | none, some digits => do
        let (c, rest) ← takePoint digits r
        return c ++ (← unescape n rest)
      | none, none =>
        if v = unit '\n' then unescape n (trimSpacesStart r)
        else if v = unit '\r' ∧ r.head? = some (unit '\n') then
          unescape n (trimSpacesStart (r.drop 1))
        else none
    else if isSpaceOrTab u then
      let rest := trimSpacesStart (v :: r)
      if atLineEnd rest then unescape n rest
      else (unescape n rest).map (u :: (v :: r).takeWhile isSpaceOrTab ++ ·)
    else (unescape n (v :: r)).map (u :: ·)

/-- The text of a double-quoted scalar. -/
def doubleQuotedText (source : Text) : Option Text :=
  if isClosed (unit '"') source then unescape source.length (source.drop 1) else none

/-! ## The core schema -/

def isNullWord (t : Text) : Bool :=
  t.isEmpty || [Text.ofString "~", Text.ofString "null", Text.ofString "Null",
    Text.ofString "NULL"].contains t

/-- The truth value that a word stands for. -/
def truth? (t : Text) : Option Bool :=
  if [Text.ofString "true", Text.ofString "True", Text.ofString "TRUE"].contains t then some true
  else if [Text.ofString "false", Text.ofString "False", Text.ofString "FALSE"].contains t then
    some false
  else none

/-- The number that a decimal numeral stands for: digits around a point, with an exponent. -/
def decimal? (t : Text) : Option (Numeral × Binary64) :=
  let (n, rest) := Numeral.scan t
  if rest.isEmpty && n.hasDigits then some (n, n.value) else none

/-- The number that digits after `0o` or `0x` stand for. -/
def radix? (t : Text) : Option Binary64 :=
  let value? (base : Nat) : Option Binary64 :=
    (Numeral.radixValue? base (t.drop 2)).map Binary64.ofNat
  if t.take 2 = Text.ofString "0o" then value? 8
  else if t.take 2 = Text.ofString "0x" then value? 16
  else none

/-- Infinity with an optional sign, or not a number. -/
def special? (t : Text) : Option Binary64 :=
  let word := (Numeral.takeSign t).2
  if [Text.ofString ".inf", Text.ofString ".Inf", Text.ofString ".INF"].contains word then
    some (Binary64.infinity (t.head? == some (unit '-')))
  else if [Text.ofString ".nan", Text.ofString ".NaN", Text.ofString ".NAN"].contains t then
    some Binary64.nan
  else none

/-- An integer of the core schema. -/
def integer? (t : Text) : Option Binary64 :=
  match decimal? t with
  | some (n, x) => if n.fraction.isNone && n.exponent.isNone then some x else none
  | none => radix? t

/-- A number with a point or an exponent, or one of the special words. -/
def float? (t : Text) : Option Binary64 :=
  match decimal? t with
  | some (n, x) => if n.fraction.isSome || n.exponent.isSome then some x else none
  | none => special? t

/-- The value of a plain scalar by the core schema. -/
def coreValue (t : Text) : Json :=
  if isNullWord t then .null
  else
    match truth? t, integer? t, float? t with
    | some b, _, _ => .bool b
    | none, some n, _ => .num n
    | none, none, some n => .num n
    | none, none, none => .str t

/-- The name that the standard tags share. -/
def standardTag : Text := "tag:yaml.org,2002:"

/-- The value of a scalar with a tag. A tag that the core schema does not define, or that its
text does not fit, leaves the text. -/
def taggedValue (tag t : Text) : Json :=
  let number (n : Option Binary64) : Json := (n.map Json.num).getD (.str t)
  if tag = standardTag ++ "null" then if isNullWord t then .null else .str t
  else if tag = standardTag ++ "bool" then ((truth? t).map Json.bool).getD (.str t)
  else if tag = standardTag ++ "int" then number (integer? t)
  else if tag = standardTag ++ "float" then number (float? t)
  else .str t

end RequestCompiler.Yaml
