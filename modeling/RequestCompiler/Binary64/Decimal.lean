import RequestCompiler.Binary64
import RequestCompiler.Text

/-!
# Decimal text of a binary64 number

`shortest` finds the decimal with the fewest digits that reads back as the number, and among
those the nearest one. `text` lays it out: positionally for magnitudes from one millionth up
to below `10 ^ 21`, in scientific form outside. `fixed` writes a fixed count of places
instead, a half going away from zero.
-/

namespace RequestCompiler

/-- The number `coefficient * 10 ^ exponent`. -/
structure Decimal where
  coefficient : Nat
  exponent : Int
deriving DecidableEq, Repr

namespace Binary64

/-- The magnitude without its sign. -/
def magnitude (x : Binary64) : Binary64 := { x with negative := false }

/-- The magnitude is at least `10 ^ k`. -/
def reaches (x : Binary64) (k : Int) : Bool :=
  x.denominator * Nat.pow 10 k.toNat ≤ x.numerator * Nat.pow 10 (-k).toNat

/-- The count of digits before the decimal point of a non-zero magnitude, negative when zeros
follow the point: `10 ^ (k - 1) ≤ x < 10 ^ k`. -/
def wholeDigits (x : Binary64) : Int :=
  let guess := ((Nat.log2 x.significand : Int) + x.scale) * 30103 / 100000 + 1
  if x.reaches guess then guess + 1 else if x.reaches (guess - 1) then guess else guess - 1

/-- The multiples of `10 ^ exponent` next to the magnitude, the nearer one first. -/
def neighbours (x : Binary64) (exponent : Int) : List Decimal :=
  let num := x.numerator * Nat.pow 10 (-exponent).toNat
  let den := x.denominator * Nat.pow 10 exponent.toNat
  let low := num / den
  let rest := num % den
  if 2 * rest < den ∨ (2 * rest = den ∧ low % 2 = 0) then
    [⟨low, exponent⟩, ⟨low + 1, exponent⟩]
  else [⟨low + 1, exponent⟩, ⟨low, exponent⟩]

/-- The decimal is nearer to the magnitude than to any other. -/
def readsBack (x : Binary64) (d : Decimal) : Bool :=
  ofDecimal false d.coefficient d.exponent == x.magnitude

/-- The magnitude in full. -/
def exactDecimal (x : Binary64) : Decimal :=
  ⟨x.significand * Nat.pow 2 x.scale.toNat * Nat.pow 5 (-x.scale).toNat, min x.scale 0⟩

/-- The decimal with the fewest digits that reads back as the magnitude, and of those the
nearest. Seventeen digits are always enough. -/
def shortest (x : Binary64) : Decimal :=
  let k := x.wholeDigits
  ((List.range 17).findSome? fun i =>
    (x.neighbours (k - (i + 1 : Nat))).find? x.readsBack).getD x.exactDecimal

/-- The digits of a decimal without trailing zeros, with the place of the point counted from
the first digit. -/
def digitsAndPoint (d : Decimal) : Text × Int :=
  let digits := Text.ofNat d.coefficient
  ((digits.reverse.dropWhile (· == unit '0')).reverse, digits.length + d.exponent)

/-- Digits in scientific form: a point after the first digit, and a signed exponent. -/
def scientificLayout (digits : Text) (point : Int) : Text :=
  let e := point - 1
  let sign : Text := if e < 0 then "-" else "+"
  let mantissa : Text :=
    if digits.length = 1 then digits else digits.take 1 ++ "." ++ digits.drop 1
  mantissa ++ "e" ++ sign ++ Text.ofNat e.natAbs

/-- The layout of digits around a point. -/
def layout (digits : Text) (point : Int) : Text :=
  let n := digits.length
  if (n : Int) ≤ point ∧ point ≤ 21 then digits ++ Text.repeated (point.toNat - n) '0'
  else if 0 < point ∧ point ≤ 21 then
    digits.take point.toNat ++ "." ++ digits.drop point.toNat
  else if -6 < point ∧ point ≤ 0 then "0." ++ Text.repeated (-point).toNat '0' ++ digits
  else scientificLayout digits point

/-- The text of a number. -/
def text (x : Binary64) : Text :=
  if x.isNaN then "NaN"
  else if x.isZero then "0"
  else
    let sign : Text := if x.negative then "-" else ""
    if x.isInfinite then sign ++ "Infinity"
    else
      let (digits, point) := digitsAndPoint x.shortest
      sign ++ layout digits point

/-- A finite number in scientific form. -/
def scientific (x : Binary64) : Text :=
  if x.isZero then "0e+0"
  else
    let sign : Text := if x.negative then "-" else ""
    let (digits, point) := digitsAndPoint x.shortest
    sign ++ scientificLayout digits point

/-- The number with `places` digits after the point, a half going away from zero. From
`10 ^ 21` on it is the plain text. A negative number keeps its sign even if only zeros are
left. -/
def fixed (places : Nat) (x : Binary64) : Text :=
  if x.isNaN || !x.isFinite || x.reaches 21 then x.text
  else
    let scaled := (2 * x.numerator * Nat.pow 10 places + x.denominator) / (2 * x.denominator)
    let digits := Text.ofNat scaled
    let padded := Text.repeated (places + 1 - digits.length) '0' ++ digits
    let whole := padded.length - places
    let sign : Text := if x.negative && !x.isZero then "-" else ""
    sign ++ padded.take whole ++ "." ++ padded.drop whole

end Binary64

end RequestCompiler
