import Mathlib.Data.List.Induction
import Mathlib.Data.Rat.Lemmas
import Mathlib.Tactic.IntervalCases
import Mathlib.Tactic.Ring
import RequestCompiler.Binary64.Numeral

/-!
# Numerals and their texts

`Numeral.written` is a numeral as a text, and `scan` takes the text apart into the same numeral
(`scan_written`). A numeral stands for its digits as a whole number, in units of its last place
(`value_eq`).
-/

namespace RequestCompiler.Numeral

section Digits

variable {s t r : Text}

theorem isDigit_iff {u : UInt16} : isDigit u = true ↔ 48 ≤ u.toNat ∧ u.toNat ≤ 57 := by
  simp [isDigit, UInt16.le_iff_toNat_le]

/-- What a numeral starts with is no other unit. -/
theorem ne_of_lead {u v : UInt16} (lead : u = unit '-' ∨ isDigit u = true) (sign : v ≠ unit '-')
    (digit : isDigit v = false) : u ≠ v := by
  rintro rfl
  rcases lead with same | same
  · exact sign same
  · exact nomatch digit.symm.trans same

theorem digitsValue_append (s t : Text) :
    digitsValue (s ++ t) = digitsValue s * 10 ^ t.length + digitsValue t := by
  induction t using List.reverseRecOn with
  | nil => simp [digitsValue]
  | append_singleton t u ih =>
    simp only [digitsValue, ← List.append_assoc, List.foldl_append, List.foldl_cons, List.foldl_nil] at ih ⊢
    rw [ih, List.length_append, List.length_singleton, Nat.pow_succ]
    ring

theorem digitsValue_zeros (n : Nat) : digitsValue (Text.repeated n '0') = 0 := by
  induction n with
  | zero => rfl
  | succ n ih =>
    have first : Text.repeated (n + 1) '0' = [unit '0'] ++ Text.repeated n '0' := rfl
    rw [first, digitsValue_append, ih]
    exact Nat.zero_mul _

theorem length_zeros (n : Nat) : (Text.repeated n '0').length = n := List.length_replicate

theorem isDigit_zeros (n : Nat) : ∀ u ∈ Text.repeated n '0', isDigit u = true := by
  intro u member
  rw [List.eq_of_mem_replicate member]
  rfl

/-- Each zero behind digits makes them ten times as much. -/
theorem digitsValue_append_zeros (t : Text) (n : Nat) :
    digitsValue (t ++ Text.repeated n '0') = digitsValue t * 10 ^ n := by
  rw [digitsValue_append, digitsValue_zeros, length_zeros, Nat.add_zero]

/-- Zeros in front of digits do not count. -/
theorem digitsValue_zeros_append (n : Nat) (t : Text) :
    digitsValue (Text.repeated n '0' ++ t) = digitsValue t := by
  rw [digitsValue_append, digitsValue_zeros, Nat.zero_mul, Nat.zero_add]

/-- The digits of a number count up to it. -/
theorem digitsValue_ofNat (n : Nat) : digitsValue (Text.ofNat n) = n := by
  have single : ∀ m < 10, (Text.ofNat m).length = 1 ∧ digitsValue (Text.ofNat m) = m := by
    intro m small
    interval_cases m <;> decide
  induction n using Nat.base_induction 10 (by decide) with
  | single m small => exact (single m small).2
  | digit m k small pos ih =>
    have split : Text.ofNat (10 * m + k) = Text.ofNat m ++ Text.ofNat k := by
      rw [Text.ofNat, ← Nat.toDigits_append_toDigits (by decide) pos small, List.map_append]
      rfl
    rw [split, digitsValue_append, ih, (single k small).1, (single k small).2]
    ring

theorem isDigit_ofNat (n : Nat) : ∀ u ∈ Text.ofNat n, isDigit u = true := by
  have digits : ∀ k, 48 ≤ k → k ≤ 57 → isDigit (Nat.toUInt16 k) = true := by
    intro k least most
    interval_cases k <;> rfl
  intro u member
  obtain ⟨c, written, rfl⟩ := List.mem_map.1 member
  have digit := Nat.isDigit_of_mem_toDigits (by decide) (by decide) written
  rw [Char.isDigit, Bool.and_eq_true, decide_eq_true_eq, decide_eq_true_eq] at digit
  exact digits c.val.toNat digit.1 digit.2

theorem ofNat_ne_nil (n : Nat) : Text.ofNat n ≠ [] := by
  rw [Text.ofNat, Ne, List.map_eq_nil_iff]
  exact Nat.toDigits_ne_nil

/-- Digits end where something else follows. -/
theorem takeWhile_digits (digits : ∀ u ∈ t, isDigit u = true) (stop : ∀ u ∈ r.head?, isDigit u = false) :
    (t ++ r).takeWhile isDigit = t ∧ (t ++ r).dropWhile isDigit = r := by
  rw [List.takeWhile_append_of_pos digits, List.dropWhile_append_of_pos digits]
  cases r with
  | nil => exact ⟨List.append_nil t, rfl⟩
  | cons u r =>
    have other : ¬isDigit u = true := by simp [stop u rfl]
    rw [List.takeWhile_cons_of_neg other, List.dropWhile_cons_of_neg other, List.append_nil]
    exact ⟨rfl, rfl⟩

end Digits

section Written

/-- A fraction with its point, if there is one. -/
def writtenFraction : Option Text → Text
  | none => []
  | some t => unit '.' :: t

/-- An exponent with its letter and its sign, if there is one. -/
def writtenExponent : Option (Bool × Text) → Text
  | none => []
  | some (negative, t) => unit 'e' :: (if negative then unit '-' else unit '+') :: t

/-- The numeral as a text. -/
def written (n : Numeral) : Text :=
  n.sign.toList ++ (n.whole ++ (writtenFraction n.fraction ++ writtenExponent n.exponent))

/-- The parts of the numeral are digits, and there are some of them in front of the point and in the exponent. -/
structure Plain (n : Numeral) : Prop where
  sign : ∀ u ∈ n.sign, u = unit '-'
  nonempty : n.whole ≠ []
  whole : ∀ u ∈ n.whole, isDigit u = true
  fraction : ∀ t ∈ n.fraction, ∀ u ∈ t, isDigit u = true
  exponent : ∀ e ∈ n.exponent, e.2 ≠ [] ∧ ∀ u ∈ e.2, isDigit u = true

variable {n : Numeral}

theorem takeExponent_written {e : Option (Bool × Text)}
    (digits : ∀ p ∈ e, p.2 ≠ [] ∧ ∀ u ∈ p.2, isDigit u = true) :
    takeExponent (writtenExponent e) = (e, []) := by
  cases e with
  | none => rfl
  | some p =>
    obtain ⟨negative, t⟩ := p
    obtain ⟨nonempty, digits⟩ := digits _ rfl
    have all := takeWhile_digits (r := []) digits nofun
    rw [List.append_nil] at all
    have apart : unit '+' ≠ unit '-' := by decide
    cases negative <;>
      simp [writtenExponent, takeExponent, takeSign, all.1, all.2, nonempty, apart]

theorem isDigit_head_writtenExponent (e : Option (Bool × Text)) :
    ∀ u ∈ (writtenExponent e).head?, isDigit u = false := by
  cases e with
  | none => exact nofun
  | some p =>
    intro u first
    obtain rfl := Option.some.inj first
    rfl

theorem takeFraction_written {f : Option Text} (digits : ∀ t ∈ f, ∀ u ∈ t, isDigit u = true)
    (e : Option (Bool × Text)) :
    takeFraction (writtenFraction f ++ writtenExponent e) = (f, writtenExponent e) := by
  cases f with
  | none =>
    cases e with
    | none => rfl
    | some p => rfl
  | some t =>
    have all := takeWhile_digits (digits t rfl) (isDigit_head_writtenExponent e)
    simp only [writtenFraction, List.cons_append, takeFraction, if_true, all.1, all.2]

theorem isDigit_head_writtenFraction (f : Option Text) (e : Option (Bool × Text)) :
    ∀ u ∈ (writtenFraction f ++ writtenExponent e).head?, isDigit u = false := by
  cases f with
  | none => exact isDigit_head_writtenExponent e
  | some t =>
    intro u first
    obtain rfl := Option.some.inj first
    rfl

theorem takeSign_written (plain : n.Plain) : takeSign n.written =
    (n.sign, n.whole ++ (writtenFraction n.fraction ++ writtenExponent n.exponent)) := by
  unfold written
  cases sign : n.sign with
  | some u =>
    obtain rfl := plain.sign u sign
    rfl
  | none =>
    have first := plain.whole
    cases whole : n.whole with
    | nil => exact absurd whole plain.nonempty
    | cons u t =>
      have digit := isDigit_iff.1 (first u (whole ▸ List.mem_cons_self))
      have apart : ¬(u = unit '+' ∨ u = unit '-') := by
        rintro (rfl | rfl)
        · exact absurd digit.1 (by decide)
        · exact absurd digit.1 (by decide)
      exact if_neg apart

/-- The text of a numeral is taken apart into it. -/
theorem scan_written (plain : n.Plain) : scan n.written = (n, []) := by
  have whole := takeWhile_digits plain.whole (isDigit_head_writtenFraction n.fraction n.exponent)
  simp only [scan, takeSign_written plain, whole.1, whole.2, takeFraction_written plain.fraction,
    takeExponent_written plain.exponent]

/-- The text tells the numeral. -/
theorem written_inj {m : Numeral} (plain : n.Plain) (plain' : m.Plain) (same : n.written = m.written) : n = m := by
  have scans := scan_written plain
  rw [same, scan_written plain'] at scans
  exact (congrArg Prod.fst scans).symm

/-- A numeral starts with a digit or a minus sign. -/
theorem exists_lead (plain : n.Plain) :
    ∃ u t, n.written = u :: t ∧ (u = unit '-' ∨ isDigit u = true) := by
  unfold written
  cases sign : n.sign with
  | some u => exact ⟨u, _, rfl, .inl (plain.sign u sign)⟩
  | none =>
    have digits := plain.whole
    cases whole : n.whole with
    | nil => exact absurd whole plain.nonempty
    | cons u t => exact ⟨u, _, rfl, .inr (digits u (whole ▸ List.mem_cons_self))⟩

end Written

section Value

/-- The power of ten that the last digit counts. -/
def lastPlace (n : Numeral) : Int :=
  (match n.exponent with
    | some (true, e) => -(digitsValue e : Int)
    | some (false, e) => digitsValue e
    | none => 0) - (n.fraction.getD []).length

/-- What the numeral amounts to, but for its sign. -/
def amount (n : Numeral) : ℚ := digitsValue (n.whole ++ n.fraction.getD []) * 10 ^ n.lastPlace

theorem value_eq (n : Numeral) : n.value = Binary64.ofDecimal (n.sign == some (unit '-'))
    (digitsValue (n.whole ++ n.fraction.getD [])) n.lastPlace := rfl

end Value

end RequestCompiler.Numeral
