import Mathlib.Data.List.TakeWhile
import RequestCompiler.Proofs.Text.Context
import RequestCompiler.Proofs.Text.Occurrence

/-!
# Capital sigmas that nothing around a text disturbs

Whether a capital sigma ends a word is told by the nearest points before and behind it that the rule does
not look through. `FixedSigmas k` says that `k` has the points that tell it for each of its own sigmas. Then
it is written alike between any texts (`undisturbed_of_fixed`), and otherwise a letter before or behind it
makes a difference (`fixedSigmas_of_undisturbed`), so that it is not found there (`infix_lower_iff`).
-/

namespace RequestCompiler.Text

/-- The rule of the final sigma looks through all these points. -/
def LookedThrough (ps : List Nat) : Prop := ∀ p ∈ ps, isCaseIgnorable p = true

/-- Each capital sigma of the text is followed in it by a letter of the same word, or the text tells what is
before the sigma and, if that is a letter, what is behind it. -/
def FixedSigmas (k : Text) : Prop :=
  ∀ p q, k.points = p ++ 0x3A3 :: q → startsCased q = true ∨
    ¬LookedThrough p ∧ (startsCased p.reverse = false ∨ ¬LookedThrough q)

variable {ps : List Nat}

theorem lookedThrough_reverse : LookedThrough ps.reverse ↔ LookedThrough ps := by
  simp [LookedThrough]

theorem startsCased_append_of_through (through : LookedThrough ps) (qs : List Nat) :
    startsCased (ps ++ qs) = startsCased qs := by
  unfold startsCased
  rw [List.dropWhile_append_of_pos through]

theorem startsCased_of_through (through : LookedThrough ps) : startsCased ps = false := by
  have none := startsCased_append_of_through through []
  rwa [List.append_nil] at none

theorem startsCased_append (solid : ¬LookedThrough ps) (qs : List Nat) :
    startsCased (ps ++ qs) = startsCased ps := by
  unfold startsCased
  rw [List.dropWhile_append]
  cases rest : ps.dropWhile isCaseIgnorable with
  | nil => exact absurd (List.dropWhile_eq_nil_iff.1 rest) solid
  | cons p r => rfl

theorem fixedSigmas_of_not_mem {k : Text} (none : 0x3A3 ∉ k.points) : FixedSigmas k := by
  intro p q split
  exact absurd (by simp [split]) none

theorem undisturbed_of_fixed {k : Text} (fixed : FixedSigmas k) (x y : Text) : Undisturbed x k y := by
  intro p q split
  simp only [List.append_nil, endsWord]
  rcases fixed p q split with cased | ⟨solid, rest⟩
  · have solid : ¬LookedThrough q := fun through => by simp [startsCased_of_through through] at cased
    rw [startsCased_append solid, cased, Bool.not_true, Bool.and_false, Bool.and_false]
  · rw [startsCased_append (lookedThrough_reverse.not.2 solid)]
    rcases rest with uncased | solid'
    · rw [uncased, Bool.false_and, Bool.false_and]
    · rw [startsCased_append solid']

/-- A text whose sigmas no letter before it disturbs, and none behind it, has fixed sigmas. -/
theorem fixedSigmas_of_undisturbed {k x y : Text} (cased : startsCased x.points.reverse = true)
    (cased' : startsCased y.points = true) (before : Undisturbed x k []) (behind : Undisturbed [] k y) :
    FixedSigmas k := by
  intro p q split
  have before := before p q split
  have behind := behind p q split
  simp only [points, List.reverse_nil, List.append_nil, endsWord] at before behind
  by_cases letter : startsCased q = true
  · exact .inl letter
  rw [Bool.not_eq_true] at letter
  rw [letter, Bool.not_false, Bool.and_true, Bool.and_true] at before
  refine .inr ⟨fun through => ?_, ?_⟩
  · have through := lookedThrough_reverse.2 through
    rw [startsCased_append_of_through through, cased, startsCased_of_through through] at before
    cases before
  · by_contra neither
    push Not at neither
    obtain ⟨letter', through⟩ := neither
    rw [startsCased_append_of_through through, cased', letter, Bool.not_true, Bool.and_false, Bool.not_false,
      Bool.and_true] at behind
    exact letter' behind.symm

section Occurrence

variable {k x y : Text}

/-- A text without disturbed sigmas is found in every text in which it stands, in lower case. -/
theorem infix_lower_of_undisturbed (left : Apart x k) (right : Apart k y) (undisturbed : Undisturbed x k y) :
    k.lower <:+: (x ++ (k ++ y)).lower := by
  rcases eq_or_ne k [] with rfl | solid
  · exact List.nil_infix
  · rw [lower_surrounded (left.append_right solid y) right, lowerWithin_eq_lower_iff.2 undisturbed,
      ← List.append_assoc]
    exact List.infix_append _ _ _

/-- Two capital letters, to put before or behind a text. -/
def letters : List UInt16 := [unit 'A', unit 'B']

variable {c : UInt16} (letter : c ∈ letters)
include letter

theorem not_surrogate_letter : isHigh c = false ∧ isLow c = false := by
  rcases List.mem_pair.1 letter with rfl | rfl <;> decide

theorem cased_letter : startsCased [c.toNat] = true := by
  rcases List.mem_pair.1 letter with rfl | rfl <;> decide +kernel

theorem lowerPoint_letter (before after : List Nat) :
    (lowerPoint before c.toNat after).flatMap ofPoint = [c + 0x20] := by
  rcases List.mem_pair.1 letter with rfl | rfl <;> rfl

theorem apart_letter_left (k : Text) : Apart [c] k := by
  rintro u ⟨⟩ v - high
  exact absurd high (by simp [(not_surrogate_letter letter).1])

theorem apart_letter_right (k : Text) : Apart k [c] := by
  rintro u - v ⟨⟩ -
  exact (not_surrogate_letter letter).2

theorem undisturbed_or_head (occurs : k.lower <:+: lower ([c] ++ (k ++ []))) :
    Undisturbed [c] k [] ∨ k.lower.head? = some (c + 0x20) := by
  have first : lowerWithin [] [c] (k ++ []) = [c + 0x20] := by
    simp [lowerWithin, points, lowerBetween, lowerPoint_letter letter]
  rw [lower_surrounded (apart_letter_left letter _) (apart_nil_right k), first] at occurs
  simp only [points, lowerBetween, List.flatMap_nil, List.append_nil, List.singleton_append] at occurs
  rw [← lowerWithin_eq_lower_iff]
  exact eq_or_head_of_infix (length_lowerWithin _ _ _) occurs

theorem undisturbed_or_getLast (occurs : k.lower <:+: lower ([] ++ (k ++ [c]))) :
    Undisturbed [] k [c] ∨ k.lower.getLast? = some (c + 0x20) := by
  rw [lower_surrounded (apart_nil_left _) (apart_letter_right letter k)] at occurs
  simp only [points, lowerBetween, List.append_nil, lowerPoint_letter letter] at occurs
  rw [← lowerWithin_eq_lower_iff]
  exact eq_or_getLast_of_infix (length_lowerWithin _ _ _) occurs

omit letter

/-- A text is found in lower case wherever it stands exactly if its sigmas are fixed. -/
theorem infix_lower_iff : (∀ x y, Apart x k → Apart k y → k.lower <:+: (x ++ (k ++ y)).lower) ↔
    FixedSigmas k := by
  constructor
  · intro occurs
    have head := fun (c : UInt16) (letter : c ∈ letters) =>
      undisturbed_or_head letter (occurs [c] [] (apart_letter_left letter k) (apart_nil_right k))
    have last := fun (c : UInt16) (letter : c ∈ letters) =>
      undisturbed_or_getLast letter (occurs [] [c] (apart_nil_left k) (apart_letter_right letter k))
    -- The lower case of the text does not start or end with both letters.
    obtain ⟨c, letter, before⟩ : ∃ c ∈ letters, Undisturbed [c] k [] := by
      rcases head (unit 'A') (by decide) with before | a
      · exact ⟨_, by decide, before⟩
      rcases head (unit 'B') (by decide) with before | b
      · exact ⟨_, by decide, before⟩
      · exact absurd (a.symm.trans b) (by decide)
    obtain ⟨c', letter', behind⟩ : ∃ c ∈ letters, Undisturbed [] k [c] := by
      rcases last (unit 'A') (by decide) with behind | a
      · exact ⟨_, by decide, behind⟩
      rcases last (unit 'B') (by decide) with behind | b
      · exact ⟨_, by decide, behind⟩
      · exact absurd (a.symm.trans b) (by decide)
    have cased : startsCased (points [c]).reverse = true := cased_letter letter
    have cased' : startsCased (points [c']) = true := cased_letter letter'
    exact fixedSigmas_of_undisturbed cased cased' before behind
  · intro fixed x y left right
    exact infix_lower_of_undisturbed left right (undisturbed_of_fixed fixed x y)

end Occurrence

end RequestCompiler.Text
