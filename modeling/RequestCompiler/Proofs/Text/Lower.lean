import RequestCompiler.Proofs.Text.Utf8
import RequestCompiler.Proofs.Text.Words
import RequestCompiler.Text.Lower

/-!
# Blanks have no case

`isBlank_iff` lists the blanks. None of them is a surrogate or a capital letter, so a blank text
is its own lower case (`lower_blank`). None of them is a small letter either, so no other text has a
blank lower case (`blank_of_lower`).
-/

namespace RequestCompiler.Text

/-- The code points of the blanks. -/
def blankPoints : List Nat :=
  [9, 10, 11, 12, 13, 0x20, 0xA0, 0x1680, 0x2000, 0x2001, 0x2002, 0x2003, 0x2004, 0x2005, 0x2006,
    0x2007, 0x2008, 0x2009, 0x200A, 0x2028, 0x2029, 0x202F, 0x205F, 0x3000, 0xFEFF]

theorem isBlank_iff {u : UInt16} : isBlank u = true ↔ u.toNat ∈ blankPoints := by
  simp only [isBlank, Bool.or_eq_true, Bool.and_eq_true, decide_eq_true_eq, beq_iff_eq,
    UInt16.le_iff_toNat_le, ← UInt16.toNat_inj, UInt16.reduceToNat, blankPoints, List.mem_cons,
    List.not_mem_nil, or_false]
  constructor
  · omega
  · omega

theorem isHigh_blank {u : UInt16} (h : isBlank u = true) : isHigh u = false := by
  have apart : ∀ p ∈ blankPoints, p < 0xD800 ∨ 0xDBFF < p := by decide
  have point := apart _ (isBlank_iff.1 h)
  simp only [isHigh, Bool.and_eq_false_iff, decide_eq_false_iff_not, UInt16.le_iff_toNat_le,
    UInt16.reduceToNat]
  omega

/-- Each unit of a blank text is a point of its own. -/
theorem points_blank {t : Text} (h : ∀ u ∈ t, isBlank u = true) :
    t.points = t.map UInt16.toNat := by
  induction t using points.induct with
  | case1 => rfl
  | case2 u => rfl
  | case3 u v r pair ih =>
    have low := isHigh_blank (h u (by simp))
    simp [low] at pair
  | case4 u v r pair ih =>
    have rest := ih fun w hw => h w (List.mem_cons_of_mem _ hw)
    rw [points, if_neg pair, rest]
    rfl

theorem lowerPoints_blank (before : List Nat) {ps : List Nat} (h : ∀ p ∈ ps, p ∈ blankPoints) :
    lowerPoints before ps = ps := by
  have own : ∀ p ∈ blankPoints, p ≠ 0x130 ∧ p ≠ 0x3A3 ∧ smallPoint p = p := by decide
  induction ps generalizing before with
  | nil => rfl
  | cons p ps ih =>
    obtain ⟨notDotted, notSigma, small⟩ := own p (h p (by simp))
    have rest := ih (p :: before) fun q hq => h q (List.mem_cons_of_mem _ hq)
    simp [lowerPoints, lowerPoint, notDotted, notSigma, small, rest]

theorem lower_blank {t : Text} (h : ∀ u ∈ t, isBlank u = true) : t.lower = t := by
  have blanks : ∀ p ∈ t.map UInt16.toNat, p ∈ blankPoints := by
    simpa using fun u hu => isBlank_iff.1 (h u hu)
  rw [lower, points_blank h, lowerPoints_blank [] blanks, List.flatMap_map]
  simp [ofPoint_toNat]

section Blank

/-- A point is written with blanks only if it is one. -/
theorem mem_blankPoints_of_ofPoint {p : Nat} (blank : ∀ u ∈ ofPoint p, isBlank u = true) :
    p ∈ blankPoints := by
  unfold ofPoint at blank
  split at blank
  · rename_i basic
    have point := isBlank_iff.1 (blank _ List.mem_cons_self)
    rwa [UInt16.toNat_ofNat_of_lt' basic] at point
  · -- The second unit of a pair is a surrogate.
    have apart : ∀ q ∈ blankPoints, q < 0xDC00 ∨ 0xDFFF < q := by decide
    have small : 0xDC00 + (p - 0x10000) % 0x400 < 0x10000 := by omega
    have point := apart _ (isBlank_iff.1 (blank _ (List.mem_cons_of_mem _ List.mem_cons_self)))
    rw [UInt16.toNat_ofNat_of_lt' small] at point
    omega

/-- No small letter is a blank. -/
theorem mem_blankPoints_of_smallPoint {p : Nat} (blank : smallPoint p ∈ blankPoints) :
    p ∈ blankPoints := by
  have letters : ∀ q ∈ blankPoints, q < 0x61 ∨ 0x7A < q := by decide
  have runs : ∀ r ∈ capitalRuns, ∀ q ∈ blankPoints,
      (q : Int) < r.1 + r.2.2.2 ∨ r.2.1 + r.2.2.2 < (q : Int) := by decide +kernel
  have positive : ∀ q ∈ blankPoints, 0 < q := by decide
  unfold smallPoint at blank
  split at blank
  · split at blank
    · have apart := letters _ blank
      omega
    · exact blank
  · split at blank
    · rename_i r found
      have bounds := List.find?_some found
      simp only [Bool.and_eq_true, decide_eq_true_eq] at bounds
      have apart := runs r (List.mem_of_find?_eq_some found) _ blank
      have least := positive _ blank
      omega
    · exact blank

theorem mem_blankPoints_of_lowerPoint {before after : List Nat} {p : Nat}
    (blank : ∀ q ∈ lowerPoint before p after, q ∈ blankPoints) : p ∈ blankPoints := by
  have dotted : 0x69 ∉ blankPoints := by decide
  have sigma : ∀ final : Bool, (if final then 0x3C2 else 0x3C3) ∉ blankPoints := by decide
  unfold lowerPoint at blank
  split at blank
  · exact absurd (blank _ List.mem_cons_self) dotted
  split at blank
  · exact absurd (blank _ List.mem_cons_self) (sigma _)
  · exact mem_blankPoints_of_smallPoint (blank _ List.mem_cons_self)

theorem mem_blankPoints_of_lowerPoints {before ps : List Nat}
    (blank : ∀ q ∈ lowerPoints before ps, q ∈ blankPoints) : ∀ p ∈ ps, p ∈ blankPoints := by
  induction ps generalizing before with
  | nil => nofun
  | cons p ps ih =>
    rw [lowerPoints, List.forall_mem_append] at blank
    exact List.forall_mem_cons.2 ⟨mem_blankPoints_of_lowerPoint blank.1, ih blank.2⟩

/-- Only a blank text has a blank lower case. -/
theorem blank_of_lower {t : Text} (blank : ∀ u ∈ t.lower, isBlank u = true) :
    ∀ u ∈ t, isBlank u = true := by
  have lowered : ∀ q ∈ lowerPoints [] t.points, q ∈ blankPoints := fun q member =>
    mem_blankPoints_of_ofPoint fun u unit => blank u (List.mem_flatMap.2 ⟨q, member, unit⟩)
  have points := mem_blankPoints_of_lowerPoints lowered
  intro u member
  rw [← ofPoint_points t, List.mem_flatMap] at member
  obtain ⟨p, point, unit⟩ := member
  -- The points of blanks are single units.
  have small : ∀ q ∈ blankPoints, q < 0x10000 := by decide
  rw [ofPoint, if_pos (small p (points p point)), List.mem_singleton] at unit
  rw [unit, isBlank_iff, UInt16.toNat_ofNat_of_lt' (small p (points p point))]
  exact points p point

/-- Texts that are equal in lower case are blank together. -/
theorem trim_ne_nil_of_lower_eq {s t : Text} (same : s.lower = t.lower) (solid : t.trim ≠ []) :
    s.trim ≠ [] := by
  intro none
  rw [trim_eq_nil_iff, isBlankText_iff] at none
  rw [Ne, trim_eq_nil_iff, isBlankText_iff] at solid
  rw [lower_blank none] at same
  exact solid (blank_of_lower (same ▸ none))

end Blank

end RequestCompiler.Text
