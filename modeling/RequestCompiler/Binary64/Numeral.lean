import RequestCompiler.Binary64
import RequestCompiler.Text.Blank

/-!
# Decimal numerals

The longest decimal numeral at the start of a text, taken apart into its fields. The
grammars that accept numerals (documents, settings) differ only in which fields they ask
for, and each states its own test over `Numeral`.
-/

namespace RequestCompiler

/-- A decimal numeral: `+` or `-`, digits, a point with digits, and an exponent, each part
possibly missing. -/
structure Numeral where
  sign : Option UInt16
  whole : Text
  fraction : Option Text
  exponent : Option (Bool × Text)
deriving DecidableEq, Repr

namespace Numeral

def isDigit (u : UInt16) : Bool := unit '0' ≤ u && u ≤ unit '9'

/-- The value of a run of digits. -/
def digitsValue (t : Text) : Nat := t.foldl (fun n u => n * 10 + (u.toNat - 48)) 0

/-- A leading sign and the rest. -/
def takeSign : Text → Option UInt16 × Text
  | [] => (none, [])
  | u :: r => if u = unit '+' ∨ u = unit '-' then (some u, r) else (none, u :: r)

/-- A fraction, if a point comes first. -/
def takeFraction : Text → Option Text × Text
  | [] => (none, [])
  | u :: r =>
    if u = unit '.' then (some (r.takeWhile isDigit), r.dropWhile isDigit) else (none, u :: r)

/-- An exponent, if its letter comes first and a digit follows the sign. -/
def takeExponent : Text → Option (Bool × Text) × Text
  | [] => (none, [])
  | u :: r =>
    if u = unit 'e' ∨ u = unit 'E' then
      let (sign, s) := takeSign r
      if (s.takeWhile isDigit).isEmpty then (none, u :: r)
      else (some (sign == some (unit '-'), s.takeWhile isDigit), s.dropWhile isDigit)
    else (none, u :: r)

/-- The longest numeral at the start of the text, and the rest. -/
def scan (t : Text) : Numeral × Text :=
  let (sign, r) := takeSign t
  let (fraction, r') := takeFraction (r.dropWhile isDigit)
  let (exponent, rest) := takeExponent r'
  (⟨sign, r.takeWhile isDigit, fraction, exponent⟩, rest)

/-- The number nearest to the numeral. -/
def value (n : Numeral) : Binary64 :=
  let places := n.fraction.getD []
  let shift : Int :=
    match n.exponent with
    | some (true, e) => -(digitsValue e : Int)
    | some (false, e) => digitsValue e
    | none => 0
  Binary64.ofDecimal (n.sign == some (unit '-')) (digitsValue (n.whole ++ places))
    (shift - places.length)

/-- A digit stands before or after the point. -/
def hasDigits (n : Numeral) : Bool := !n.whole.isEmpty || !(n.fraction.getD []).isEmpty

/-- The value of digits in base `base`, if the text is a non-empty run of them. -/
def radixValue? (base : Nat) (t : Text) : Option Nat :=
  if t.isEmpty then none
  else t.foldl (fun acc u => do
    let n ← acc
    let d ← Text.hexDigit? u
    if d < base then some (n * base + d) else none) (some 0)

/-- The number that a setting's text stands for: a decimal numeral, `Infinity` with an
optional sign, or digits after `0x`, `0o` or `0b`. Blanks around it are ignored, a blank text
is zero, and every other text is NaN. -/
def ofSetting (t : Text) : Binary64 :=
  let s := t.trim
  if s.isEmpty then Binary64.zero
  else
    let radix (base : Nat) : Binary64 :=
      match radixValue? base (s.drop 2) with
      | some n => Binary64.ofNat n
      | none => Binary64.nan
    let lead := s.take 2
    if lead = Text.ofString "0x" ∨ lead = Text.ofString "0X" then radix 16
    else if lead = Text.ofString "0o" ∨ lead = Text.ofString "0O" then radix 8
    else if lead = Text.ofString "0b" ∨ lead = Text.ofString "0B" then radix 2
    else if (takeSign s).2 = Text.ofString "Infinity" then
      Binary64.infinity (s.head? == some (unit '-'))
    else
      let (n, rest) := scan s
      if rest.isEmpty && n.hasDigits then n.value else Binary64.nan

end Numeral

end RequestCompiler
