/-!
# Text as a sequence of UTF-16 code units

Every length, column, limit and comparison of this library counts code units, and a cut
may fall between the two halves of a surrogate pair. `Text` is therefore the list of
units itself, and the operations below are list functions. A literal is written as a
`String` and read by `Text.ofString`.
-/

namespace RequestCompiler

/-- A text: its UTF-16 code units in order. -/
abbrev Text := List UInt16

/-- The single code unit of a character below U+10000. -/
abbrev unit (c : Char) : UInt16 := c.val.toUInt16

namespace Text

/-- The units of one character: a surrogate pair from U+10000 on, one unit below. -/
def ofChar (c : Char) : Text :=
  if c.val < 0x10000 then [c.val.toUInt16]
  else
    [(0xD800 + (c.val - 0x10000) / 0x400).toUInt16, (0xDC00 + (c.val - 0x10000) % 0x400).toUInt16]

/-- The units of a string. -/
def ofString (s : String) : Text := s.toList.flatMap ofChar

instance : Coe String Text := ⟨ofString⟩

/-- The first half of a surrogate pair. -/
def isHigh (u : UInt16) : Bool := 0xD800 ≤ u && u ≤ 0xDBFF

/-- The second half of a surrogate pair. -/
def isLow (u : UInt16) : Bool := 0xDC00 ≤ u && u ≤ 0xDFFF

/-- The code point of a surrogate pair. -/
def pairPoint (high low : UInt16) : Nat :=
  0x10000 + (high.toNat - 0xD800) * 0x400 + (low.toNat - 0xDC00)

/-- The code points of a text: a surrogate pair is one point, a surrogate without its
partner a point of its own. -/
def points : Text → List Nat
  | [] => []
  | [u] => [u.toNat]
  | u :: v :: r =>
    if isHigh u && isLow v then pairPoint u v :: points r else u.toNat :: points (v :: r)

/-- The units of a code point, surrogates included. -/
def ofPoint (p : Nat) : Text :=
  if p < 0x10000 then [p.toUInt16]
  else [(0xD800 + (p - 0x10000) / 0x400).toUInt16, (0xDC00 + (p - 0x10000) % 0x400).toUInt16]

/-- No surrogate stands without its partner. -/
def wellFormed : Text → Bool
  | [] => true
  | [u] => !isHigh u && !isLow u
  | u :: v :: r =>
    if isHigh u then isLow v && wellFormed r else !isLow u && wellFormed (v :: r)

/-- A surrogate without its partner becomes U+FFFD, as in any byte encoding of the text. -/
def scrub (t : Text) : Text :=
  t.points.flatMap fun p => if 0xD800 ≤ p ∧ p ≤ 0xDFFF then [0xFFFD] else ofPoint p

/-- The string of a text; surrogates without partner become U+FFFD. -/
def toString (t : Text) : String :=
  String.ofList (t.points.map fun p => if 0xD800 ≤ p ∧ p ≤ 0xDFFF then '\uFFFD' else Char.ofNat p)

/-- The decimal digits of a natural number. -/
def ofNat (n : Nat) : Text := (Nat.toDigits 10 n).map unit

/-- `n` copies of one character. -/
def repeated (n : Nat) (c : Char) : Text := List.replicate n (unit c)

/-- The text widened with spaces to at least `width` units. -/
def padEnd (t : Text) (width : Nat) : Text := t ++ repeated (width - t.length) ' '

/-- The texts one after another with `sep` between neighbours. -/
def join (sep : Text) : List Text → Text
  | [] => []
  | [t] => t
  | t :: u :: r => t ++ sep ++ join sep (u :: r)

/-- Puts a unit in front of the first piece. -/
def consFirst (u : UInt16) : List Text → List Text
  | [] => [[u]]
  | t :: r => (u :: t) :: r

/-- The pieces between the occurrences of one unit; there is always at least one piece. -/
def splitAt (sep : UInt16) : Text → List Text
  | [] => [[]]
  | u :: r => if u = sep then [] :: splitAt sep r else consFirst u (splitAt sep r)

/-- The lines of a text. A line ends at a line feed or at carriage return and line feed;
what follows the last line end is a line too, so there is always at least one. -/
def lines : Text → List Text
  | [] => [[]]
  | [u] => if u = unit '\n' then [[], []] else [[u]]
  | u :: v :: r =>
    if u = unit '\n' then [] :: lines (v :: r)
    else if u = unit '\r' ∧ v = unit '\n' then [] :: lines r
    else consFirst u (lines (v :: r))

/-- `needle` occurs in the text, at any place. -/
def contains (needle : Text) : Text → Bool
  | [] => needle.isEmpty
  | u :: r => needle.isPrefixOf (u :: r) || contains needle r

/-- The number of units before the first occurrence of `needle`. -/
def indexOf? (needle : Text) : Text → Option Nat
  | [] => if needle.isEmpty then some 0 else none
  | u :: r =>
    if needle.isPrefixOf (u :: r) then some 0 else (indexOf? needle r).map (· + 1)

/-- Comparison by code units, the first difference deciding. -/
def le (a b : Text) : Bool := decide (a ≤ b)

/-- The value of a hexadecimal digit of either case. -/
def hexDigit? (u : UInt16) : Option Nat :=
  if unit '0' ≤ u ∧ u ≤ unit '9' then some (u.toNat - 48)
  else if unit 'a' ≤ u ∧ u ≤ unit 'f' then some (u.toNat - 87)
  else if unit 'A' ≤ u ∧ u ≤ unit 'F' then some (u.toNat - 55)
  else none

/-- The lower-case hexadecimal digit of a value below 16. -/
def hexUnit (n : Nat) : UInt16 := if n < 10 then (48 + n).toUInt16 else (87 + n).toUInt16

end Text

end RequestCompiler
