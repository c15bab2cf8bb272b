import RequestCompiler.Binary64.Decimal
import RequestCompiler.Proofs.Binary64.Quotient

/-!
# Rounding and order

A fraction that reaches a power of two is not rounded below it (`powerOrder_le_order_ofRatio`), and a number
at the place of that power or beyond is no less than the power (`pow_le_of_powerOrder_le`). Numbers without a
sign compare as their places do (`Unsigned.le_iff`).
-/

namespace RequestCompiler.Binary64

section Powers

variable {x : Binary64} {num den k : Nat}

theorem order_ofOrder (negative : Bool) (n : Nat) : (ofOrder negative n).order = min n infinityOrder := by
  have bound : min n infinityOrder ≤ 2047 * 4503599627370496 := Nat.min_le_right _ _
  simp only [ofOrder, order, Fin.ofNat]
  omega

theorem div_le_roundToEven (num den : Nat) : num / den ≤ roundToEven num den := by
  simp only [roundToEven]
  split_ifs <;> omega

/-- The place of a power of two. -/
def powerOrder (k : Nat) : Nat := 4503599627370496 * (k + 1023)

/-- What is rounded is at the place of a power of two or beyond if the fraction reaches that power. -/
theorem powerOrder_le_order_ofRatio (posDen : 0 < den) (reaches : den * 2 ^ k ≤ num) (negative : Bool) :
    min (powerOrder k) infinityOrder ≤ (ofRatio negative num den).order := by
  have posNum : 0 < num := (Nat.mul_pos posDen (Nat.two_pow_pos k)).trans_le reaches
  have posDen' : (0 : ℚ) < den := by exact_mod_cast posDen
  have pos : (0 : ℚ) < num / den := div_pos (by exact_mod_cast posNum) posDen'
  obtain ⟨l, log⟩ : ∃ l : Nat, Int.log 2 (num / den : ℚ) = k + l := by
    have least : (k : Int) ≤ Int.log 2 (num / den : ℚ) := by
      rw [← Int.zpow_le_iff_le_log (by decide) pos, le_div_iff₀ posDen', mul_comm, zpow_natCast]
      exact_mod_cast reaches
    exact Int.le.dest least |>.imp fun l same => same.symm
  have leading : den * 2 ^ (k + l) ≤ num := by
    have own := ((log_eq_iff pos).1 log).1
    rw [le_div_iff₀ posDen', mul_comm] at own
    exact_mod_cast own
  have scale : scaleOf num den = (k + l : Nat) - 52 := by
    rw [scaleOf_eq posNum posDen, log]
    omega
  -- The quotient that is rounded has all 53 bits.
  have bits : 4503599627370496 ≤
      num * 2 ^ (-((k + l : Nat) - 52 : Int)).toNat / (den * 2 ^ ((k + l : Nat) - 52 : Int).toNat) := by
    rw [Nat.le_div_iff_mul_le (Nat.mul_pos posDen (Nat.two_pow_pos _))]
    have exponents : 52 + ((k + l : Nat) - 52 : Int).toNat = k + l + (-((k + l : Nat) - 52 : Int)).toNat := by
      omega
    calc 4503599627370496 * (den * 2 ^ ((k + l : Nat) - 52 : Int).toNat)
        = den * 2 ^ (52 + ((k + l : Nat) - 52 : Int).toNat) := by
          rw [Nat.pow_add, Nat.mul_left_comm]
      _ = den * 2 ^ (k + l) * 2 ^ (-((k + l : Nat) - 52 : Int)).toNat := by
          rw [exponents, Nat.pow_add, Nat.mul_assoc]
      _ ≤ _ := Nat.mul_le_mul_right _ leading
  have rounded := bits.trans (div_le_roundToEven _ _)
  rw [ofRatio, if_neg posNum.ne']
  simp only [scale, Nat.pow_eq, order_ofOrder]
  refine le_min ((Nat.min_le_left _ _).trans ?_) (Nat.min_le_right _ _)
  rw [powerOrder]
  omega

/-- A finite number at the place of a power of two or beyond is at least that power. -/
theorem pow_le_of_powerOrder_le (reaches : powerOrder k ≤ x.order) : x.denominator * 2 ^ k ≤ x.numerator := by
  have fraction := x.fraction.isLt
  rw [powerOrder, order] at reaches
  have normal : x.exponent.val ≠ 0 := by omega
  have exponents : (-x.scale).toNat + k ≤ 52 + x.scale.toNat := by
    rw [Binary64.scale, if_neg normal]
    omega
  rw [numerator, significand, if_neg normal, denominator]
  calc 2 ^ (-x.scale).toNat * 2 ^ k = 2 ^ ((-x.scale).toNat + k) := (Nat.pow_add 2 _ _).symm
    _ ≤ 2 ^ (52 + x.scale.toNat) := Nat.pow_le_pow_right (by decide) exponents
    _ = 4503599627370496 * 2 ^ x.scale.toNat := Nat.pow_add 2 52 _
    _ ≤ _ := Nat.mul_le_mul_right _ (Nat.le_add_right _ _)

end Powers

/-- A number without a sign. -/
structure Unsigned (x : Binary64) : Prop where
  sign : x.negative = false
  number : x.isNaN = false

namespace Unsigned

variable {x y : Binary64}

theorem ofRatio (num den : Nat) : (ofRatio false num den).Unsigned where
  sign := by
    rw [Binary64.ofRatio]
    split <;> rfl
  number := by
    refine decide_eq_false (Nat.not_lt.2 ?_)
    rw [Binary64.ofRatio]
    split
    · exact (order_ofOrder _ _).trans_le (Nat.min_le_right _ _)
    · exact (order_ofOrder _ _).trans_le (Nat.min_le_right _ _)

theorem divNat (unsigned : x.Unsigned) (n : Nat) : (x.divNat n).Unsigned := by
  rw [Binary64.divNat, unsigned.sign]
  split
  · exact .ofRatio _ _
  · exact unsigned

theorem magnitude_eq (unsigned : x.Unsigned) : x.magnitude = x := by
  rw [magnitude, ← unsigned.sign]

theorem le_iff (unsigned : x.Unsigned) (unsigned' : y.Unsigned) : le x y = true ↔ x.order ≤ y.order := by
  simp [le, unsigned.number, unsigned'.number, signedOrder, unsigned.sign, unsigned'.sign]

theorem eq_of_order (unsigned : x.Unsigned) (unsigned' : y.Unsigned) (finite : y.isFinite = true)
    (same : x.order = y.order) : x = y := by
  have finite' : x.isFinite = true := by rwa [isFinite, same]
  rw [← ofOrder_order finite, ← ofOrder_order finite', unsigned.sign, unsigned'.sign, same]

end Unsigned

end RequestCompiler.Binary64
