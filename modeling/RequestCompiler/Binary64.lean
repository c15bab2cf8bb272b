/-!
# Binary64 numbers

Every number of a document is a binary64 value. The type holds the three fields of the
format, so equality is equality of bits and everything below is computed in natural
numbers: `ofRatio` rounds a quotient to the nearest value, an exact tie to the even
neighbour, and `ofDecimal` does so for a decimal numeral.
-/

namespace RequestCompiler

/-- A binary64 value: sign, biased exponent and trailing significand. -/
structure Binary64 where
  negative : Bool
  exponent : Fin 2048
  fraction : Fin 4503599627370496
deriving DecidableEq, Repr

namespace Binary64

/-- The place of the magnitude among all magnitudes, zero first. Magnitudes compare as
their places do. -/
-- A product is evaluated along its second factor, so the small one stands there.
def order (x : Binary64) : Nat := 4503599627370496 * x.exponent.val + x.fraction.val

/-- The place of infinity. -/
def infinityOrder : Nat := 2047 * 4503599627370496

/-- The value at a place; every place from infinity on is infinity. -/
def ofOrder (negative : Bool) (n : Nat) : Binary64 :=
  let place := min n infinityOrder
  ⟨negative, Fin.ofNat 2048 (place / 4503599627370496),
    Fin.ofNat 4503599627370496 (place % 4503599627370496)⟩

def zero : Binary64 := ofOrder false 0

def infinity (negative : Bool) : Binary64 := ofOrder negative infinityOrder

def nan : Binary64 := ⟨false, 2047, 2251799813685248⟩

def isNaN (x : Binary64) : Bool := infinityOrder < x.order

def isInfinite (x : Binary64) : Bool := x.order == infinityOrder

def isFinite (x : Binary64) : Bool := x.order < infinityOrder

def isZero (x : Binary64) : Bool := x.order == 0

/-- The integer significand: a finite magnitude is `significand * 2 ^ scale`. -/
def significand (x : Binary64) : Nat :=
  if x.exponent.val = 0 then x.fraction.val else 4503599627370496 + x.fraction.val

/-- The power of two of the significand's last place. -/
def scale (x : Binary64) : Int :=
  if x.exponent.val = 0 then -1074 else (x.exponent.val : Int) - 1075

/-- The numerator of a finite magnitude. -/
def numerator (x : Binary64) : Nat := x.significand * Nat.pow 2 x.scale.toNat

/-- The denominator of a finite magnitude, a power of two. -/
def denominator (x : Binary64) : Nat := Nat.pow 2 (-x.scale).toNat

/-- The natural number nearest to `num / den`, an exact tie going to the even one. -/
def roundToEven (num den : Nat) : Nat :=
  let q := num / den
  let r := num % den
  if 2 * r < den then q
  else if den < 2 * r then q + 1
  else if q % 2 = 0 then q else q + 1

/-- The scale at which `num / den` has a significand of 53 bits, or the least scale if that
is larger. -/
def scaleOf (num den : Nat) : Int :=
  let k := (Nat.log2 num : Int) - Nat.log2 den
  let reached := den * Nat.pow 2 k.toNat ≤ num * Nat.pow 2 (-k).toNat
  max (-1074) (if reached then k - 52 else k - 53)

/-- The value nearest to `num / den`. -/
def ofRatio (negative : Bool) (num den : Nat) : Binary64 :=
  if num = 0 then ofOrder negative 0
  else
    let q := scaleOf num den
    let m := roundToEven (num * Nat.pow 2 (-q).toNat) (den * Nat.pow 2 q.toNat)
    ofOrder negative ((q + 1074).toNat * 4503599627370496 + m)

def ofNat (n : Nat) : Binary64 := ofRatio false n 1

/-- The value nearest to `coefficient * 10 ^ exponent`. Exponents beyond four hundred places
of the format's range are answered without computing the power. -/
def ofDecimal (negative : Bool) (coefficient : Nat) (exponent : Int) : Binary64 :=
  if coefficient = 0 then ofOrder negative 0
  else if 400 < exponent then infinity negative
  else if exponent + Nat.log2 coefficient < -400 then ofOrder negative 0
  else ofRatio negative (coefficient * Nat.pow 10 exponent.toNat) (Nat.pow 10 (-exponent).toNat)

/-- The place of the value on the number line; the two zeros share theirs. -/
def signedOrder (x : Binary64) : Int := if x.negative then -(x.order : Int) else x.order

/-- Numeric comparison; nothing compares with NaN. -/
def le (x y : Binary64) : Bool := !x.isNaN && !y.isNaN && decide (x.signedOrder ≤ y.signedOrder)

/-- Numeric equality; NaN equals nothing and the zeros are equal. -/
def same (x y : Binary64) : Bool := !x.isNaN && !y.isNaN && decide (x.signedOrder = y.signedOrder)

/-- The greatest integer that is not above a finite value. -/
def floor? (x : Binary64) : Option Int :=
  if x.isFinite then
    let n := x.numerator / x.denominator
    some (if x.negative then -((x.numerator + x.denominator - 1) / x.denominator : Nat) else n)
  else none

/-- The integer that the value is. -/
def toInt? (x : Binary64) : Option Int :=
  if x.numerator % x.denominator = 0 then x.floor? else none

/-- The value nearest to a value divided by a positive natural number. -/
def divNat (x : Binary64) (n : Nat) : Binary64 :=
  if x.isFinite then ofRatio x.negative x.numerator (x.denominator * n) else x

end Binary64

end RequestCompiler
