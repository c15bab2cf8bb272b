import Mathlib.Data.List.TakeWhile
import RequestCompiler.Binary64.Decimal
import RequestCompiler.Proofs.Binary64.Numeral
import RequestCompiler.Proofs.Binary64.Quotient

/-!
# Numbers are read back from their texts

`shortest` is a decimal that is rounded to the number again (`readsBack_shortest`), and however its digits are
laid out, they are a numeral that amounts to it (`exists_lays`). So the text of a finite number is a numeral that
stands for the number (`exists_written`), and two finite numbers have the same text exactly if they are the same
but for the sign of a zero (`text_eq_iff`).
-/

namespace RequestCompiler.Binary64

section Shortest

variable {x : Binary64} {d : Decimal}

theorem readsBack_iff : x.readsBack d = true ↔ ofDecimal false d.coefficient d.exponent = x.magnitude :=
  beq_iff_eq

/-- The sign is kept apart from the rounding. -/
theorem ofDecimal_sign (negative : Bool) (c : Nat) (e : Int) :
    ofDecimal negative c e = { ofDecimal false c e with negative := negative } := by
  unfold ofDecimal ofRatio
  split
  · rfl
  split
  · rfl
  split
  · rfl
  split <;> rfl

/-- Written out in full, a finite magnitude is rounded to itself. -/
theorem readsBack_exactDecimal (finite : x.isFinite = true) : x.readsBack x.exactDecimal = true := by
  have up : (min x.scale 0).toNat = 0 := by omega
  have down : (-min x.scale 0).toNat = (-x.scale).toNat := by omega
  have cleared : x.exactDecimal.coefficient * 10 ^ (min x.scale 0).toNat * x.denominator =
      x.numerator * 10 ^ (-min x.scale 0).toNat := by
    have ten : 10 ^ (-x.scale).toNat = 2 ^ (-x.scale).toNat * 5 ^ (-x.scale).toNat := by
      rw [← Nat.mul_pow]
    simp only [exactDecimal, numerator, denominator, Nat.pow_eq, up, down, ten]
    ring
  rw [readsBack_iff, ofDecimal_eq_ofRatio]
  calc ofRatio false (x.exactDecimal.coefficient * 10 ^ (min x.scale 0).toNat) (10 ^ (-min x.scale 0).toNat) =
        ofRatio false x.numerator x.denominator :=
        ofRatio_congr (Nat.pow_pos (by decide)) (Nat.two_pow_pos _) cleared false
    _ = x.magnitude := ofRatio_self (x := x.magnitude) finite

/-- The shortest decimal of a finite number is rounded to its magnitude. -/
theorem readsBack_shortest (finite : x.isFinite = true) : x.readsBack x.shortest = true := by
  rw [shortest]
  cases search : (List.range 17).findSome? fun i =>
      (x.neighbours (x.wholeDigits - (i + 1 : Nat))).find? x.readsBack with
  | none => exact readsBack_exactDecimal finite
  | some d =>
    obtain ⟨i, -, first⟩ := List.exists_of_findSome?_eq_some search
    exact List.find?_some first

end Shortest

section Layout

variable {digits : Text} {point : Int}

/-- The numeral is without a sign, is written as the text, and amounts to the digits with the point there. -/
structure Lays (digits : Text) (point : Int) (t : Text) (n : Numeral) : Prop where
  plain : n.Plain
  sign : n.sign = none
  written : n.written = t
  amount : n.amount = Numeral.digitsValue digits * 10 ^ (point - digits.length)

/-- The digits, with zeros behind them. -/
theorem lays_whole (digit : ∀ u ∈ digits, Numeral.isDigit u = true) (nonempty : digits ≠ [])
    {zeros : Nat} (place : digits.length + zeros = point) :
    ∃ n, Lays digits point (digits ++ Text.repeated zeros '0') n := by
  refine ⟨⟨none, digits ++ Text.repeated zeros '0', none, none⟩, ⟨nofun, ?_, ?_, nofun, nofun⟩, rfl, ?_, ?_⟩
  · simp [nonempty]
  · exact List.forall_mem_append.2 ⟨digit, Numeral.isDigit_zeros zeros⟩
  · simp [Numeral.written, Numeral.writtenFraction, Numeral.writtenExponent]
  · have power : point - digits.length = zeros := by omega
    have last : (0 : Int) - ([] : Text).length = 0 := rfl
    simp only [Numeral.amount, Numeral.lastPlace, Option.getD_none, List.append_nil, power, last,
      Numeral.digitsValue_append_zeros, zpow_zero, mul_one, zpow_natCast]
    push_cast
    rfl

/-- The point stands among the digits. -/
theorem lays_inner (digit : ∀ u ∈ digits, Numeral.isDigit u = true) {place : Nat} (pos : 0 < place)
    (inner : place < digits.length) :
    ∃ n, Lays digits place (digits.take place ++ "." ++ digits.drop place) n := by
  refine ⟨⟨none, digits.take place, some (digits.drop place), none⟩, ⟨nofun, ?_, ?_, ?_, nofun⟩, rfl, ?_, ?_⟩
  · rw [Ne, List.take_eq_nil_iff]
    rintro (none | rfl)
    · exact pos.ne' none
    · exact absurd inner (Nat.not_lt_zero _)
  · exact fun u member => digit u (List.mem_of_mem_take member)
  · rintro t ⟨⟩ u member
    exact digit u (List.mem_of_mem_drop member)
  · simp [Numeral.written, Numeral.writtenFraction, Numeral.writtenExponent]
    rfl
  · have power : (0 : Int) - (digits.drop place).length = place - digits.length := by
      rw [List.length_drop]
      omega
    simp only [Numeral.amount, Numeral.lastPlace, Option.getD_some, List.take_append_drop, power]

/-- Zeros stand in front of the digits. -/
theorem lays_small (digit : ∀ u ∈ digits, Numeral.isDigit u = true) {zeros : Nat} (place : -(zeros : Int) = point) :
    ∃ n, Lays digits point ("0." ++ Text.repeated zeros '0' ++ digits) n := by
  refine ⟨⟨none, [unit '0'], some (Text.repeated zeros '0' ++ digits), none⟩,
    ⟨nofun, List.cons_ne_nil _ _, ?_, ?_, nofun⟩, rfl, ?_, ?_⟩
  · exact List.forall_mem_singleton.2 rfl
  · rintro t ⟨⟩
    exact List.forall_mem_append.2 ⟨Numeral.isDigit_zeros zeros, digit⟩
  · simp [Numeral.written, Numeral.writtenFraction, Numeral.writtenExponent]
    rfl
  · have power : (0 : Int) - (Text.repeated zeros '0' ++ digits).length = point - digits.length := by
      rw [List.length_append, Numeral.length_zeros]
      omega
    have value : Numeral.digitsValue ([unit '0'] ++ (Text.repeated zeros '0' ++ digits)) =
        Numeral.digitsValue digits := by
      rw [← List.append_assoc]
      exact Numeral.digitsValue_zeros_append (zeros + 1) digits
    simp only [Numeral.amount, Numeral.lastPlace, Option.getD_some, power, value]

/-- An exponent as it is written. -/
def writtenPower (e : Int) : Bool × Text := (decide (e < 0), Text.ofNat e.natAbs)

theorem lastPlace_writtenPower (sign : Option UInt16) (whole : Text) (fraction : Option Text) (e : Int) :
    Numeral.lastPlace ⟨sign, whole, fraction, some (writtenPower e)⟩ = e - (fraction.getD []).length := by
  by_cases negative : e < 0
  · simp only [Numeral.lastPlace, writtenPower, negative, decide_true, Numeral.digitsValue_ofNat]
    omega
  · simp only [Numeral.lastPlace, writtenPower, negative, decide_false, Numeral.digitsValue_ofNat]
    omega

theorem writtenExponent_writtenPower (e : Int) : Numeral.writtenExponent (some (writtenPower e)) =
    "e" ++ (if e < 0 then "-" else "+" : Text) ++ Text.ofNat e.natAbs := by
  by_cases negative : e < 0
  · simp only [Numeral.writtenExponent, writtenPower, negative, decide_true, if_true]
    rfl
  · simp only [Numeral.writtenExponent, writtenPower, negative, decide_false, if_false]
    rfl

/-- One digit stands in front of the point, and an exponent says where it belongs. -/
theorem lays_scientific (digit : ∀ u ∈ digits, Numeral.isDigit u = true) (nonempty : digits ≠ []) :
    ∃ n, Lays digits point (scientificLayout digits point) n := by
  have exponent : ∀ p ∈ some (writtenPower (point - 1)), p.2 ≠ [] ∧ ∀ u ∈ p.2, Numeral.isDigit u = true := by
    rintro p ⟨⟩
    exact ⟨Numeral.ofNat_ne_nil _, Numeral.isDigit_ofNat _⟩
  cases digits with
  | nil => exact absurd rfl nonempty
  | cons d rest =>
    rw [List.forall_mem_cons] at digit
    have whole : ∀ u ∈ [d], Numeral.isDigit u = true := List.forall_mem_singleton.2 digit.1
    have unsigned : ∀ u ∈ (none : Option UInt16), u = unit '-' := by simp
    cases rest with
    | nil =>
      refine ⟨⟨none, [d], none, some (writtenPower (point - 1))⟩,
        ⟨unsigned, List.cons_ne_nil _ _, whole, by simp, exponent⟩, rfl, ?_, ?_⟩
      · simp [Numeral.written, writtenExponent_writtenPower, scientificLayout, Numeral.writtenFraction]
      · simp [Numeral.amount, lastPlace_writtenPower]
    | cons d' rest =>
      refine ⟨⟨none, [d], some (d' :: rest), some (writtenPower (point - 1))⟩,
        ⟨unsigned, List.cons_ne_nil _ _, whole, ?_, exponent⟩, rfl, ?_, ?_⟩
      · rintro t ⟨⟩
        exact digit.2
      · simp [Numeral.written, writtenExponent_writtenPower, scientificLayout, Numeral.writtenFraction]
        rfl
      · have power : point - 1 - (d' :: rest).length = point - (d :: d' :: rest).length := by
          simp only [List.length_cons]
          omega
        simp only [Numeral.amount, lastPlace_writtenPower, Option.getD_some, power, List.singleton_append]

/-- However digits are laid out around a point, they are a numeral that amounts to them. -/
theorem exists_lays (digit : ∀ u ∈ digits, Numeral.isDigit u = true) (nonempty : digits ≠ []) (point : Int) :
    ∃ n, Lays digits point (layout digits point) n := by
  unfold layout
  dsimp only
  split
  · rename_i whole
    exact lays_whole digit nonempty (by omega)
  split
  · rename_i whole inner
    obtain ⟨place, rfl⟩ := Int.eq_ofNat_of_zero_le inner.1.le
    exact lays_inner digit (by omega) (by omega)
  split
  · rename_i small
    exact lays_small digit (by omega)
  · exact lays_scientific digit nonempty

/-- A sign in front of laid out digits is the sign of the numeral. -/
theorem Lays.exists_signed {t : Text} {n : Numeral} (lays : Lays digits point t n) (negative : Bool) :
    ∃ m : Numeral, m.Plain ∧ m.written = (if negative then "-" else "" : Text) ++ t ∧
      (m.sign == some (unit '-')) = negative ∧
      m.amount = Numeral.digitsValue digits * 10 ^ (point - digits.length) := by
  obtain ⟨plain, sign, written, amount⟩ := lays
  cases negative with
  | false => exact ⟨n, plain, written, by rw [sign]; rfl, amount⟩
  | true =>
    refine ⟨{ n with sign := some (unit '-') }, ?_, ?_, rfl, amount⟩
    · refine ⟨?_, plain.nonempty, plain.whole, plain.fraction, plain.exponent⟩
      rintro u ⟨⟩
      rfl
    · rw [← written, Numeral.written, Numeral.written, sign]
      rfl

end Layout

section Text

variable {x y : Binary64}

/-- Digits are a text that ends in no zero, and zeros. -/
theorem exists_zeros (t : Text) :
    ∃ n, t = (t.reverse.dropWhile (· == unit '0')).reverse ++ Text.repeated n '0' := by
  have split := List.takeWhile_append_dropWhile (p := (· == unit '0')) (l := t.reverse)
  have zeros : ∀ u ∈ (t.reverse.takeWhile (· == unit '0')).reverse, u = unit '0' := by
    intro u member
    exact beq_iff_eq.1 (List.mem_takeWhile_imp (p := (· == unit '0')) (List.mem_reverse.1 member))
  refine ⟨(t.reverse.takeWhile (· == unit '0')).reverse.length, ?_⟩
  rw [Text.repeated, ← List.eq_replicate_of_mem zeros, ← List.reverse_append, split, List.reverse_reverse]

/-- The digits of a decimal, with the point where it belongs, amount to the decimal. -/
theorem digitsAndPoint_amount (d : Decimal) :
    (Numeral.digitsValue (digitsAndPoint d).1 * 10 ^ ((digitsAndPoint d).2 - (digitsAndPoint d).1.length) : ℚ) =
      d.coefficient * 10 ^ d.exponent := by
  obtain ⟨zeros, digits⟩ := exists_zeros (Text.ofNat d.coefficient)
  have count := congrArg List.length digits
  have value := congrArg Numeral.digitsValue digits
  rw [List.length_append, Numeral.length_zeros] at count
  rw [Numeral.digitsValue_append_zeros, Numeral.digitsValue_ofNat] at value
  have power : (digitsAndPoint d).2 - (digitsAndPoint d).1.length = zeros + d.exponent := by
    simp only [digitsAndPoint]
    omega
  rw [power, zpow_add₀ (by decide), zpow_natCast, value, Nat.cast_mul, Nat.cast_pow, mul_assoc]
  rfl

theorem isDigit_digitsAndPoint (d : Decimal) : ∀ u ∈ (digitsAndPoint d).1, Numeral.isDigit u = true := by
  intro u member
  refine Numeral.isDigit_ofNat d.coefficient u ?_
  rw [digitsAndPoint, List.mem_reverse] at member
  exact List.mem_reverse.1 ((List.dropWhile_sublist _).subset member)

theorem digitsAndPoint_ne_nil {d : Decimal} (pos : d.coefficient ≠ 0) : (digitsAndPoint d).1 ≠ [] := by
  intro none
  have amount := digitsAndPoint_amount d
  rw [none] at amount
  have solid : (d.coefficient * 10 ^ d.exponent : ℚ) ≠ 0 :=
    mul_ne_zero (by exact_mod_cast pos) (zpow_ne_zero _ (by decide))
  exact solid (amount.symm.trans (zero_mul _))

theorem coefficient_shortest_ne_zero (finite : x.isFinite = true) (solid : x.isZero = false) :
    x.shortest.coefficient ≠ 0 := by
  intro none
  have read := readsBack_iff.1 (readsBack_shortest finite)
  rw [none, ofDecimal, if_pos rfl] at read
  have zero : x.isZero = true := by
    have place : x.order = (ofOrder false 0).order := (congrArg order read).symm
    rw [isZero, place]
    rfl
  exact absurd (zero.symm.trans solid) (by decide)

/-- The shortest decimal, with its sign, is rounded to the number. -/
theorem ofDecimal_shortest (finite : x.isFinite = true) :
    ofDecimal x.negative x.shortest.coefficient x.shortest.exponent = x := by
  rw [ofDecimal_sign, readsBack_iff.1 (readsBack_shortest finite)]
  rfl

theorem isNaN_of_isFinite (finite : x.isFinite = true) : x.isNaN = false := by
  rw [isFinite, decide_eq_true_eq] at finite
  rw [isNaN, decide_eq_false_iff_not]
  omega

theorem isInfinite_of_isFinite (finite : x.isFinite = true) : x.isInfinite = false := by
  rw [isFinite, decide_eq_true_eq] at finite
  rw [isInfinite, beq_eq_false_iff_ne]
  omega

theorem same_iff (finite : x.isFinite = true) (finite' : y.isFinite = true) :
    x.same y = true ↔ x.signedOrder = y.signedOrder := by
  simp [same, isNaN_of_isFinite finite, isNaN_of_isFinite finite']

theorem signedOrder_eq_zero_iff : x.signedOrder = 0 ↔ x.isZero = true := by
  rw [signedOrder, isZero, beq_iff_eq]
  split <;> omega

theorem text_of_isZero (finite : x.isFinite = true) (zero : x.isZero = true) : x.text = "0" := by
  simp only [text, isNaN_of_isFinite finite, zero, if_true, Bool.false_eq_true, if_false]

/-- Numbers at the same place are equal, unless they are zero. -/
theorem eq_of_signedOrder (finite : x.isFinite = true) (finite' : y.isFinite = true) (solid : x.isZero = false)
    (places : x.signedOrder = y.signedOrder) : x = y := by
  have pos : x.order ≠ 0 := beq_eq_false_iff_ne.1 solid
  have fields : x.negative = y.negative ∧ x.order = y.order := by grind [signedOrder]
  rw [← ofOrder_order finite, fields.1, fields.2, ofOrder_order finite']

/-- The text of a finite number is a numeral that amounts to the number, but for the sign of a zero. -/
theorem exists_written (finite : x.isFinite = true) :
    ∃ n : Numeral, n.Plain ∧ n.written = x.text ∧ n.value.signedOrder = x.signedOrder := by
  -- Zero is written without its sign, and every other number as its shortest decimal.
  cases zero : x.isZero with
  | true =>
    have digit : ∀ u ∈ [unit '0'], Numeral.isDigit u = true := List.forall_mem_singleton.2 rfl
    refine ⟨⟨none, [unit '0'], none, none⟩, ⟨nofun, List.cons_ne_nil _ _, digit, nofun, nofun⟩, ?_, ?_⟩
    · rw [text_of_isZero finite zero]
      rfl
    · rw [signedOrder_eq_zero_iff.2 zero]
      decide
  | false =>
    obtain ⟨n, lays⟩ := exists_lays (isDigit_digitsAndPoint x.shortest)
      (digitsAndPoint_ne_nil (coefficient_shortest_ne_zero finite zero)) (digitsAndPoint x.shortest).2
    obtain ⟨m, plain, written, sign, amount⟩ := lays.exists_signed x.negative
    have value : m.value = x := by
      rw [Numeral.value_eq, sign, ofDecimal_congr (amount.trans (digitsAndPoint_amount x.shortest)),
        ofDecimal_shortest finite]
    refine ⟨m, plain, ?_, value.symm ▸ rfl⟩
    simp only [written, text, isNaN_of_isFinite finite, zero, isInfinite_of_isFinite finite, Bool.false_eq_true,
      if_false]

/-- The text of a finite number tells it, but for the sign of a zero. -/
theorem text_eq_iff (finite : x.isFinite = true) (finite' : y.isFinite = true) :
    x.text = y.text ↔ x.same y = true := by
  rw [same_iff finite finite']
  constructor
  · intro texts
    obtain ⟨n, plain, written, value⟩ := exists_written finite
    obtain ⟨m, plain', written', value'⟩ := exists_written finite'
    obtain rfl : n = m := Numeral.written_inj plain plain' (by rw [written, written', texts])
    exact value.symm.trans value'
  · intro places
    cases zero : x.isZero with
    | true =>
      have zero' : y.isZero = true := by rwa [← signedOrder_eq_zero_iff, ← places, signedOrder_eq_zero_iff]
      rw [text_of_isZero finite zero, text_of_isZero finite' zero']
    | false => rw [eq_of_signedOrder finite finite' zero places]

/-- The text of a finite number starts with a digit or a minus sign. -/
theorem exists_lead (finite : x.isFinite = true) :
    ∃ u t, x.text = u :: t ∧ (u = unit '-' ∨ Numeral.isDigit u = true) := by
  obtain ⟨n, plain, written, -⟩ := exists_written finite
  rw [← written]
  exact Numeral.exists_lead plain

end Text

end RequestCompiler.Binary64
