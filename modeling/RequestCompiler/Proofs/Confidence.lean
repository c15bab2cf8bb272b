import Mathlib.Data.Rat.Lemmas
import Mathlib.Tactic.IntervalCases
import Mathlib.Tactic.Linarith
import Mathlib.Tactic.NormNum
import RequestCompiler.Confidence
import RequestCompiler.Proofs.Binary64.Magnitude

/-!
# The threshold in exact arithmetic

`Confidence.value` is the quotient that a confidence stands for. The decision to render compares
rounded numbers; `meets_iff_value` says that it decides as the quotients would, and
`meets_ofScore_iff` that scores from five on pass. A higher score gives no lower confidence
(`atMost_ofScore`), before rounding and after it. The quotient of a score, rounded once, is the number that
the rule for any number makes of it (`number_ofScore`).
-/

namespace RequestCompiler.Confidence

/-- The confidence as a rational number. -/
def value (c : Confidence) : ℚ := c.sevenths.val / fullScore

theorem value_nonneg (c : Confidence) : 0 ≤ c.value :=
  div_nonneg (Nat.cast_nonneg _) (Nat.cast_nonneg _)

theorem value_eq (c : Confidence) : c.value = c.sevenths.val / 7 := by simp [value, fullScore]

theorem value_le_one (c : Confidence) : c.value ≤ 1 := by
  have bound : (c.sevenths.val : ℚ) ≤ 7 := by exact_mod_cast Nat.le_of_lt_succ c.sevenths.isLt
  rw [value_eq]
  linarith

/-- The confidence of a score is its seventh part, at most one. -/
theorem value_ofScore (score : Nat) : (ofScore score).value = min 1 (score / 7 : ℚ) := by
  have sevenths : ((ofScore score).sevenths.val : ℚ) = min (score : ℚ) 7 := by
    simp [ofScore, fullScore]
  rw [value_eq, sevenths]
  rcases le_total (score : ℚ) 7 with h | h
  · rw [min_eq_left h, min_eq_right (by linarith)]
  · rw [min_eq_right h, min_eq_left (by linarith)]
    norm_num

/-- The rounded numbers compare with the rounded threshold as five sevenths and more do. -/
theorem meets_iff_sevenths (c : Confidence) : c.meets = true ↔ 5 ≤ c.sevenths.val := by
  have each : ∀ s : Fin 8, (Confidence.mk s).meets = decide (5 ≤ s.val) := by decide
  cases c with
  | mk s => rw [each s, decide_eq_true_iff]

theorem meets_iff_value (c : Confidence) : c.meets = true ↔ 13 / 20 ≤ c.value := by
  rw [meets_iff_sevenths, value_eq]
  constructor
  · intro h
    have high : (5 : ℚ) ≤ c.sevenths.val := by exact_mod_cast h
    linarith
  · intro h
    by_contra less
    have low : (c.sevenths.val : ℚ) ≤ 4 := by exact_mod_cast Nat.le_of_lt_succ (not_le.1 less)
    linarith

theorem meets_ofScore_iff (score : Nat) : (ofScore score).meets = true ↔ 5 ≤ score := by
  rw [meets_iff_sevenths]
  simp only [ofScore, fullScore]
  omega

/-- The confidence is no higher than the other, as a quotient and as the number it is written as. -/
structure AtMost (c c' : Confidence) : Prop where
  value : c.value ≤ c'.value
  number : Binary64.le c.number c'.number = true

theorem atMost_ofScore {score score' : Nat} (h : score ≤ score') :
    (ofScore score).AtMost (ofScore score') where
  value := by
    have more : (score : ℚ) ≤ score' := by exact_mod_cast h
    rw [value_ofScore, value_ofScore]
    exact min_le_min_left 1 (by linarith)
  number := by
    have each : ∀ s s' : Fin 8, s ≤ s' → Binary64.le (mk s).number (mk s').number = true := by decide
    refine each _ _ (Fin.mk_le_mk.2 ?_)
    exact min_le_min_right fullScore h

section Rounding

open Binary64

/-- From eight on a score is rounded to eight or more, and its seventh part to one or more. -/
theorem one_le_divNat {n : Nat} (many : 8 ≤ n) :
    (Binary64.ofNat 1).order ≤ ((Binary64.ofNat n).divNat fullScore).order := by
  have large : min (powerOrder 3) infinityOrder ≤ (Binary64.ofNat n).order :=
    powerOrder_le_order_ofRatio Nat.one_pos (by omega) false
  have least : powerOrder 3 ≤ infinityOrder := by decide
  have one : (Binary64.ofNat 1).order = powerOrder 0 := by decide
  rw [Nat.min_eq_left least] at large
  rw [one, divNat]
  split
  · have own := pow_le_of_powerOrder_le large
    have posDen : 0 < (Binary64.ofNat n).denominator * fullScore :=
      Nat.mul_pos (Nat.two_pow_pos _) (by decide)
    have reaches : (Binary64.ofNat n).denominator * fullScore * 2 ^ 0 ≤ (Binary64.ofNat n).numerator := by
      rw [fullScore]
      omega
    have seventh := powerOrder_le_order_ofRatio posDen reaches (Binary64.ofNat n).negative
    rwa [Nat.min_eq_left (by decide)] at seventh
  · exact le_trans (by decide) large

/-- The number of the confidence of a score is what the rule makes of the score. -/
theorem number_ofScore (n : Nat) : (ofScore n).number = ratio (Binary64.ofNat n) := by
  by_cases few : n < 8
  · interval_cases n <;> decide
  have sevenths : (ofScore n).sevenths.val = 7 := Nat.min_eq_right (by rw [fullScore]; omega)
  have full : (ofScore n).number = Binary64.ofNat 1 := by
    rw [number, sevenths]
    decide
  have score : (Binary64.ofNat n).Unsigned := .ofRatio n 1
  have zero : Binary64.zero.Unsigned := ⟨by decide, by decide⟩
  have one : (Binary64.ofNat 1).Unsigned := .ofRatio 1 1
  have positive : Binary64.le Binary64.zero (Binary64.ofNat n) = true := (zero.le_iff score).2 (Nat.zero_le _)
  have quotient := score.divNat fullScore
  simp only [ratio, score.number, positive, score.magnitude_eq, quotient.number, Bool.false_or,
    if_pos, Bool.false_eq_true, if_false]
  rw [full]
  split
  · rename_i most
    have order := le_antisymm (one_le_divNat (not_lt.1 few)) ((quotient.le_iff one).1 most)
    exact (quotient.eq_of_order one (by decide) order.symm).symm
  · rfl

end Rounding

end RequestCompiler.Confidence
