import Mathlib.Algebra.Order.Field.Power
import Mathlib.Data.Int.Log
import Mathlib.Data.Rat.Floor
import Mathlib.Tactic.GCongr
import Mathlib.Tactic.Positivity
import Mathlib.Tactic.NormNum
import Mathlib.Tactic.Ring
import RequestCompiler.Binary64

/-!
# Rounding looks at the quotient alone

`ofRatio` answers the same for two fractions of one value (`ofRatio_congr`), since its scale is the logarithm
of the quotient (`scaleOf_eq`). So does `ofDecimal`: the exponents that it answers without computing a power
are those for which the quotient is rounded to zero or to infinity (`ofDecimal_eq_ofRatio`). A finite number
is what its own significand and scale are rounded to (`ofRatio_self`).
-/

namespace RequestCompiler.Binary64

section Powers

variable {b : Nat}

/-- A power as a fraction of natural numbers. -/
theorem zpow_eq_div (pos : 0 < b) (k : Int) :
    (b : ℚ) ^ k = ((b ^ k.toNat : Nat) : ℚ) / ((b ^ (-k).toNat : Nat) : ℚ) := by
  have split : (k.toNat : Int) - ((-k).toNat : Int) = k := by omega
  have solid : (b : ℚ) ≠ 0 := by exact_mod_cast pos.ne'
  calc (b : ℚ) ^ k = (b : ℚ) ^ ((k.toNat : Int) - ((-k).toNat : Int)) := by rw [split]
    _ = _ := by rw [zpow_sub₀ solid, zpow_natCast, zpow_natCast, Nat.cast_pow, Nat.cast_pow]

theorem two_pow_le_ten_pow {m n : Nat} (few : m ≤ 3 * n) : 2 ^ m ≤ 10 ^ n := by
  calc 2 ^ m ≤ 2 ^ (3 * n) := Nat.pow_le_pow_right (by decide) few
    _ = (2 ^ 3) ^ n := Nat.pow_mul 2 3 n
    _ ≤ 10 ^ n := Nat.pow_le_pow_left (by decide) n

theorem log_eq_iff {r : ℚ} (pos : 0 < r) {z : Int} :
    Int.log 2 r = z ↔ (2 : ℚ) ^ z ≤ r ∧ r < (2 : ℚ) ^ (z + 1) := by
  have low := Int.zpow_le_iff_le_log (b := 2) (by decide) (x := z) pos
  have high := Int.lt_zpow_iff_log_lt (b := 2) (by decide) (x := z + 1) pos
  rw [Nat.cast_ofNat] at low high
  rw [low, high]
  omega

end Powers

section Rounding

variable {num den : Nat}

theorem roundToEven_mul {k : Nat} (pos : 0 < k) (num den : Nat) :
    roundToEven (num * k) (den * k) = roundToEven num den := by
  have below : 2 * (num % den * k) < den * k ↔ 2 * (num % den) < den := by
    rw [← Nat.mul_assoc, Nat.mul_lt_mul_right pos]
  have above : den * k < 2 * (num % den * k) ↔ den < 2 * (num % den) := by
    rw [← Nat.mul_assoc, Nat.mul_lt_mul_right pos]
  simp only [roundToEven, Nat.mul_div_mul_right _ _ pos, Nat.mul_mod_mul_right, below, above]

theorem roundToEven_mul_self (n : Nat) (pos : 0 < den) : roundToEven (n * den) den = n := by
  simp only [roundToEven, Nat.mul_div_cancel n pos, Nat.mul_mod_left, Nat.mul_zero, if_pos pos]

/-- Below a half, the nearest natural number is zero. -/
theorem roundToEven_eq_zero (small : 2 * num < den) : roundToEven num den = 0 := by
  have below : num < den := by omega
  simp only [roundToEven, Nat.div_eq_of_lt below, Nat.mod_eq_of_lt below, if_pos small]

/-- Leading bits bound a quotient within two powers of two. -/
theorem quotient_bounds (posNum : 0 < num) (posDen : 0 < den) {k : Int}
    (bits : (Nat.log2 num : Int) - Nat.log2 den = k) :
    (2 : ℚ) ^ (k - 1) ≤ num / den ∧ (num / den : ℚ) < 2 ^ (k + 1) := by
  have two : (2 : ℚ) ≠ 0 := two_ne_zero
  have lowNum : (2 : ℚ) ^ Nat.log2 num ≤ num := by exact_mod_cast Nat.log2_self_le posNum.ne'
  have highNum : (num : ℚ) < 2 ^ (Nat.log2 num + 1) := by exact_mod_cast Nat.lt_log2_self
  have lowDen : (2 : ℚ) ^ Nat.log2 den ≤ den := by exact_mod_cast Nat.log2_self_le posDen.ne'
  have highDen : (den : ℚ) ≤ 2 ^ (Nat.log2 den + 1) := by exact_mod_cast Nat.lt_log2_self.le
  constructor
  · have exponent : k - 1 = (Nat.log2 num : Int) - (Nat.log2 den + 1 : Nat) := by omega
    rw [exponent, zpow_sub₀ two, zpow_natCast, zpow_natCast]
    exact div_le_div₀ (Nat.cast_nonneg _) lowNum (by exact_mod_cast posDen) highDen
  · have exponent : k + 1 = (Nat.log2 num + 1 : Nat) - (Nat.log2 den : Int) := by omega
    rw [exponent, zpow_sub₀ two, zpow_natCast, zpow_natCast]
    exact div_lt_div₀ highNum lowDen (by positivity) (by positivity)

theorem pow_mul_le_iff (posDen : 0 < den) (k : Int) :
    den * 2 ^ k.toNat ≤ num * 2 ^ (-k).toNat ↔ (2 : ℚ) ^ k ≤ num / den := by
  have power := zpow_eq_div (b := 2) (by decide) k
  have posPower : (0 : ℚ) < ((2 ^ (-k).toNat : Nat) : ℚ) := by exact_mod_cast Nat.two_pow_pos _
  rw [Nat.cast_ofNat] at power
  rw [power, div_le_div_iff₀ posPower (by exact_mod_cast posDen), mul_comm _ (den : ℚ)]
  exact_mod_cast Iff.rfl

/-- The scale is taken from the binary logarithm of the quotient. -/
theorem scaleOf_eq (posNum : 0 < num) (posDen : 0 < den) :
    scaleOf num den = max (-1074) (Int.log 2 (num / den : ℚ) - 52) := by
  have pos : (0 : ℚ) < num / den := div_pos (by exact_mod_cast posNum) (by exact_mod_cast posDen)
  generalize logs : (Nat.log2 num : Int) - Nat.log2 den = k
  obtain ⟨least, most⟩ := quotient_bounds posNum posDen logs
  simp only [scaleOf, logs, Nat.pow_eq, pow_mul_le_iff posDen]
  split
  · rename_i reaches
    rw [(log_eq_iff pos).2 ⟨reaches, most⟩]
  · rename_i misses
    have next : (num / den : ℚ) < 2 ^ (k - 1 + 1) := by rwa [sub_add_cancel, ← not_le]
    rw [(log_eq_iff pos).2 ⟨least, next⟩]
    congr 1
    omega

theorem ofRatio_mul {k : Nat} (pos : 0 < k) (posDen : 0 < den) (negative : Bool) (num : Nat) :
    ofRatio negative (num * k) (den * k) = ofRatio negative num den := by
  rcases Nat.eq_zero_or_pos num with rfl | posNum
  · rw [Nat.zero_mul, ofRatio, ofRatio, if_pos rfl, if_pos rfl]
  · have solid : (k : ℚ) ≠ 0 := by exact_mod_cast pos.ne'
    have quotient : ((num * k : Nat) / (den * k : Nat) : ℚ) = num / den := by
      rw [Nat.cast_mul, Nat.cast_mul, mul_div_mul_right _ _ solid]
    have scale : scaleOf (num * k) (den * k) = scaleOf num den := by
      rw [scaleOf_eq (Nat.mul_pos posNum pos) (Nat.mul_pos posDen pos), scaleOf_eq posNum posDen, quotient]
    rw [ofRatio, ofRatio, if_neg (Nat.mul_pos posNum pos).ne', if_neg posNum.ne']
    simp only [scale, Nat.mul_right_comm _ k, roundToEven_mul pos]

/-- Fractions of one value are rounded to the same number. -/
theorem ofRatio_congr {num' den' : Nat} (posDen : 0 < den) (posDen' : 0 < den')
    (same : num * den' = num' * den) (negative : Bool) :
    ofRatio negative num den = ofRatio negative num' den' := by
  calc ofRatio negative num den = ofRatio negative (num * den') (den * den') :=
        (ofRatio_mul posDen' posDen negative num).symm
    _ = ofRatio negative (num' * den) (den' * den) := by rw [same, Nat.mul_comm den]
    _ = ofRatio negative num' den' := ofRatio_mul posDen posDen' negative num'

end Rounding

section Orders

/-- A number below infinity is the one at its place. -/
theorem ofOrder_order {x : Binary64} (finite : x.isFinite = true) : ofOrder x.negative x.order = x := by
  have below := of_decide_eq_true finite
  have fraction := x.fraction.isLt
  have exponent := x.exponent.isLt
  have high : x.order / 4503599627370496 = x.exponent.val := by
    rw [order]
    omega
  have low : x.order % 4503599627370496 = x.fraction.val := by
    rw [order]
    omega
  simp only [ofOrder, Nat.min_eq_left below.le, high, low]
  cases x with
  | mk negative exponent fraction => simp

theorem ofOrder_of_le {n : Nat} (reaches : infinityOrder ≤ n) (negative : Bool) :
    ofOrder negative n = infinity negative := by
  simp only [infinity, ofOrder, Nat.min_eq_right reaches, Nat.min_self]

/-- The magnitude of a finite number as a quotient. -/
theorem quotient_eq (x : Binary64) : (x.numerator / x.denominator : ℚ) = x.significand * 2 ^ x.scale := by
  have power := zpow_eq_div (b := 2) (by decide) x.scale
  rw [Nat.cast_ofNat] at power
  rw [power, numerator, denominator, Nat.cast_mul, mul_div_assoc]
  rfl

theorem log_quotient {x : Binary64} (pos : 0 < x.significand) :
    Int.log 2 (x.numerator / x.denominator : ℚ) = Nat.log2 x.significand + x.scale := by
  have low : (2 : ℚ) ^ Nat.log2 x.significand ≤ x.significand := by
    exact_mod_cast Nat.log2_self_le pos.ne'
  have high : (x.significand : ℚ) < 2 ^ (Nat.log2 x.significand + 1) := by exact_mod_cast Nat.lt_log2_self
  have posPower : (0 : ℚ) < 2 ^ x.scale := by positivity
  rw [quotient_eq, log_eq_iff (by positivity), add_right_comm, zpow_add₀ two_ne_zero, zpow_add₀ two_ne_zero,
    zpow_natCast]
  exact ⟨mul_le_mul_of_nonneg_right low posPower.le,
    mul_lt_mul_of_pos_right (by exact_mod_cast high) posPower⟩

/-- Rounding a number does not move its scale: a significand of less than 53 bits has the least one. -/
theorem scaleOf_self {x : Binary64} (pos : 0 < x.significand) :
    scaleOf x.numerator x.denominator = x.scale := by
  have fraction := x.fraction.isLt
  have posNum : 0 < x.numerator := Nat.mul_pos pos (Nat.two_pow_pos _)
  have posDen : 0 < x.denominator := Nat.two_pow_pos _
  rw [scaleOf_eq posNum posDen, log_quotient pos]
  simp only [significand, Binary64.scale] at pos ⊢
  split
  · rename_i least
    rw [if_pos least] at pos
    have bits : Nat.log2 x.fraction.val < 52 := (Nat.log2_lt pos.ne').2 fraction
    omega
  · have bits : Nat.log2 (4503599627370496 + x.fraction.val) = 52 := by
      rw [Nat.log2_eq_iff (by omega)]
      omega
    omega

/-- A finite number is the nearest one to itself. -/
theorem ofRatio_self {x : Binary64} (finite : x.isFinite = true) :
    ofRatio x.negative x.numerator x.denominator = x := by
  rcases Nat.eq_zero_or_pos x.significand with none | pos
  · have zero : x.order = 0 := by
      simp only [significand, order] at none ⊢
      split at none <;> omega
    rw [ofRatio, numerator, none, Nat.zero_mul, if_pos rfl, ← zero, ofOrder_order finite]
  · have posNum : 0 < x.numerator := Nat.mul_pos pos (Nat.two_pow_pos _)
    have posDen : 0 < x.denominator * 2 ^ x.scale.toNat :=
      Nat.mul_pos (Nat.two_pow_pos _) (Nat.two_pow_pos _)
    have cleared : x.numerator * 2 ^ (-x.scale).toNat =
        x.significand * (x.denominator * 2 ^ x.scale.toNat) := by
      simp only [numerator, denominator, Nat.pow_eq]
      ring
    have place : (x.scale + 1074).toNat * 4503599627370496 + x.significand = x.order := by
      simp only [significand, Binary64.scale, order]
      split <;> omega
    rw [ofRatio, if_neg posNum.ne']
    simp only [scaleOf_self pos, Nat.pow_eq, cleared, roundToEven_mul_self _ posDen, place,
      ofOrder_order finite]

end Orders

section Decimals

/-- A fraction from a large power of two on is rounded to infinity. -/
theorem ofRatio_of_large {num den k : Nat} (far : 1100 ≤ k) (posDen : 0 < den) (large : den * 2 ^ k ≤ num)
    (negative : Bool) : ofRatio negative num den = infinity negative := by
  have posNum : 0 < num := (Nat.mul_pos posDen (Nat.two_pow_pos _)).trans_le large
  have posDen' : (0 : ℚ) < den := by exact_mod_cast posDen
  have log : (k : Int) ≤ Int.log 2 (num / den : ℚ) := by
    rw [← Int.zpow_le_iff_le_log (by decide) (div_pos (by exact_mod_cast posNum) posDen'),
      le_div_iff₀ posDen', mul_comm, zpow_natCast]
    exact_mod_cast large
  have scale := scaleOf_eq posNum posDen
  rw [ofRatio, if_neg posNum.ne']
  refine ofOrder_of_le ?_ negative
  simp only [infinityOrder]
  omega

/-- A fraction below half of the least power of two is rounded to zero. -/
theorem ofRatio_of_small {num den k : Nat} (deep : 1075 ≤ k) (small : num * 2 ^ k < den) (negative : Bool) :
    ofRatio negative num den = ofOrder negative 0 := by
  rcases Nat.eq_zero_or_pos num with rfl | posNum
  · exact if_pos rfl
  have posDen : 0 < den := (Nat.zero_le _).trans_lt small
  have posDen' : (0 : ℚ) < den := by exact_mod_cast posDen
  have log : Int.log 2 (num / den : ℚ) < -(k : Int) := by
    rw [← Int.lt_zpow_iff_log_lt (by decide) (div_pos (by exact_mod_cast posNum) posDen'),
      div_lt_iff₀ posDen', Nat.cast_ofNat, zpow_neg, inv_mul_eq_div, lt_div_iff₀ (by positivity),
      zpow_natCast]
    exact_mod_cast small
  have scale : scaleOf num den = -1074 := by
    rw [scaleOf_eq posNum posDen]
    omega
  have half : ∀ n, n + 1 ≤ k → 2 * (num * 2 ^ n) < den * 2 ^ 0 := by
    intro n least
    calc 2 * (num * 2 ^ n) = num * 2 ^ (n + 1) := by rw [Nat.pow_succ', Nat.mul_left_comm]
      _ ≤ num * 2 ^ k := Nat.mul_le_mul_left num (Nat.pow_le_pow_right (by decide) least)
      _ < den * 2 ^ 0 := by rwa [Nat.pow_zero, Nat.mul_one]
  have up : (-(-1074) : Int).toNat = 1074 := rfl
  have down : (-1074 : Int).toNat = 0 := rfl
  rw [ofRatio, if_neg posNum.ne']
  simp only [scale, up, down, Nat.pow_eq, roundToEven_eq_zero (half 1074 deep)]
  rfl

/-- Rounding a decimal rounds the quotient that it is, also where no power is computed. -/
theorem ofDecimal_eq_ofRatio (negative : Bool) (c : Nat) (e : Int) :
    ofDecimal negative c e = ofRatio negative (c * 10 ^ e.toNat) (10 ^ (-e).toNat) := by
  rcases Nat.eq_zero_or_pos c with rfl | pos
  · rw [ofDecimal, if_pos rfl, Nat.zero_mul]
    exact (if_pos rfl).symm
  rw [ofDecimal, if_neg pos.ne']
  split
  · rename_i large
    have exponent : (-e).toNat = 0 := by omega
    rw [exponent, Nat.pow_zero]
    refine (ofRatio_of_large (k := 3 * e.toNat) (by omega) Nat.one_pos ?_ negative).symm
    exact Nat.mul_le_mul pos (two_pow_le_ten_pow le_rfl)
  split
  · rename_i small
    have exponent : e.toNat = 0 := by omega
    obtain ⟨k, places⟩ : ∃ k, Nat.log2 c + 1 + k = 3 * (-e).toNat :=
      ⟨3 * (-e).toNat - (Nat.log2 c + 1), by omega⟩
    rw [exponent, Nat.pow_zero, Nat.mul_one]
    refine (ofRatio_of_small (k := k) (by omega) ?_ negative).symm
    calc c * 2 ^ k < 2 ^ (Nat.log2 c + 1) * 2 ^ k :=
          Nat.mul_lt_mul_of_pos_right Nat.lt_log2_self (Nat.two_pow_pos _)
      _ = 2 ^ (Nat.log2 c + 1 + k) := (Nat.pow_add 2 _ _).symm
      _ ≤ 10 ^ (-e).toNat := two_pow_le_ten_pow places.le
  · rfl

/-- Decimals of one value are rounded to the same number. -/
theorem ofDecimal_congr {c c' : Nat} {e e' : Int} (same : (c * 10 ^ e : ℚ) = c' * 10 ^ e') (negative : Bool) :
    ofDecimal negative c e = ofDecimal negative c' e' := by
  rw [ofDecimal_eq_ofRatio, ofDecimal_eq_ofRatio]
  have power := zpow_eq_div (b := 10) (by decide)
  have pos : ∀ n : Nat, (10 ^ n : Nat) ≠ (0 : ℚ) := fun n => by exact_mod_cast (Nat.pow_pos (by decide)).ne'
  simp only [Nat.cast_ofNat] at power
  rw [power e, power e', mul_div_assoc', mul_div_assoc', div_eq_div_iff (pos _) (pos _)] at same
  exact ofRatio_congr (Nat.pow_pos (by decide)) (Nat.pow_pos (by decide)) (by exact_mod_cast same) negative

end Decimals

end RequestCompiler.Binary64
