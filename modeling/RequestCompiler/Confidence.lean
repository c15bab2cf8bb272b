import RequestCompiler.Binary64.Decimal

/-!
# Confidence

The confidence of a match is its adjusted score over seven, at most one. `Confidence` is that
exact quotient, and `number` its binary64 value as it is written. `ratio` is the same rule on
any number. Directives are rendered from a confidence of 0.65 on.
-/

namespace RequestCompiler

/-- A score that means full confidence. -/
def fullScore : Nat := 7

/-- A confidence: some sevenths. -/
structure Confidence where
  sevenths : Fin 8
deriving DecidableEq, Repr

namespace Confidence

/-- The confidence of an adjusted score. -/
def ofScore (score : Nat) : Confidence := ⟨⟨min score fullScore, by unfold fullScore; omega⟩⟩

/-- The binary64 number nearest to the confidence. -/
def number (c : Confidence) : Binary64 := Binary64.ofRatio false c.sevenths.val fullScore

/-- The least confidence that is rendered. -/
def threshold : Binary64 := Binary64.ofRatio false 65 100

/-- A number is a confidence high enough to be rendered. -/
def numberMeets (x : Binary64) : Bool := Binary64.le threshold x

/-- The confidence is high enough to be rendered. -/
def meets (c : Confidence) : Bool := numberMeets c.number

/-- The confidence of any score: the part above zero over seven, at most one. -/
def ratio (score : Binary64) : Binary64 :=
  let positive :=
    if score.isNaN then score else if Binary64.le Binary64.zero score then score else Binary64.zero
  let quotient := positive.magnitude.divNat fullScore
  if quotient.isNaN || Binary64.le quotient (Binary64.ofNat 1) then quotient else Binary64.ofNat 1

/-- A confidence as it is shown: two places. -/
def shown (x : Binary64) : Text := x.fixed 2

end Confidence

end RequestCompiler
