import RequestCompiler.Proofs.Text.Utf8
import RequestCompiler.Text.Lower

/-!
# Lower case within a text

In lower case, a text that stands within another is written as it is alone, but for its capital sigmas: one
of them becomes a final small sigma where it ends a word, and what stands around the text may go on with the
word. `lowerWithin x k y` is how `k` is written between `x` and `y` (`lower_surrounded`); it is the lower case
of `k` exactly if no sigma is disturbed (`lowerWithin_eq_lower_iff`).
-/

namespace RequestCompiler.Text

section Seams

/-- No surrogate pair is made of the last unit of a text and the first one of the other. -/
def Apart (s t : Text) : Prop :=
  ∀ u ∈ s.getLast?, ∀ v ∈ t.head?, isHigh u = true → isLow v = false

instance (s t : Text) : Decidable (Apart s t) :=
  @Option.decidableForallMem _ (fun u => ∀ v ∈ t.head?, isHigh u = true → isLow v = false)
    (fun _ => Option.decidableForallMem t.head?) s.getLast?

variable {s t : Text} {u : UInt16}

theorem apart_nil_left (t : Text) : Apart [] t := nofun

theorem apart_nil_right (s : Text) : Apart s [] := nofun

theorem Apart.of_cons (h : Apart (u :: s) t) : Apart s t := by
  intro w last
  refine h w ?_
  rw [Option.mem_def] at last ⊢
  rw [List.getLast?_cons, last]
  rfl

theorem Apart.append_right (h : Apart s t) (solid : t ≠ []) (r : Text) : Apart s (t ++ r) := by
  intro w last v first
  rw [List.head?_append_of_ne_nil _ solid] at first
  exact h w last v first

/-- The points of texts that are apart are those of one and then of the other. -/
theorem points_append (apart : Apart s t) : (s ++ t).points = s.points ++ t.points := by
  induction s using points.induct with
  | case1 => rfl
  | case2 u =>
    cases t with
    | nil => rfl
    | cons v r =>
      have alone : ¬(isHigh u && isLow v) = true := by
        rw [Bool.and_eq_true]
        rintro ⟨high, low⟩
        exact absurd low (by simp [apart u rfl v rfl high])
      rw [List.singleton_append, points, points, if_neg alone]
      rfl
  | case3 u v r pair ih =>
    rw [List.cons_append, List.cons_append, points, if_pos pair, ih apart.of_cons.of_cons, points,
      if_pos pair]
    rfl
  | case4 u v r alone ih =>
    rw [List.cons_append, List.cons_append, points, if_neg alone, ← List.cons_append, ih apart.of_cons,
      points, if_neg alone]
    rfl

theorem isLow_of_isHigh (high : isHigh u = true) : isLow u = false := by
  rw [isHigh_iff] at high
  rw [← Bool.not_eq_true, isLow_iff]
  omega

theorem not_isLow_head (whole : t.wellFormed = true) : ∀ v ∈ t.head?, isLow v = false := by
  cases t using wellFormed.fun_cases with
  | case1 => simp
  | case2 u =>
    rw [wellFormed, Bool.and_eq_true, Bool.not_eq_true', Bool.not_eq_true'] at whole
    simpa using whole.2
  | case3 u v r high => simpa using isLow_of_isHigh high
  | case4 u v r high =>
    rw [wellFormed, if_neg high, Bool.and_eq_true, Bool.not_eq_true'] at whole
    simpa using whole.1

theorem not_isHigh_getLast (whole : t.wellFormed = true) : ∀ u ∈ t.getLast?, isHigh u = false := by
  induction t using wellFormed.induct with
  | case1 => simp
  | case2 u =>
    rw [wellFormed, Bool.and_eq_true, Bool.not_eq_true', Bool.not_eq_true'] at whole
    simpa using whole.1
  | case3 u v r high ih =>
    rw [wellFormed, if_pos high, Bool.and_eq_true] at whole
    cases r with
    | nil =>
      have notHigh : isHigh v = false := by
        rw [← Bool.not_eq_true]
        exact fun both => absurd whole.1 (by simp [isLow_of_isHigh both])
      simpa using notHigh
    | cons w r => exact ih whole.2
  | case4 u v r high ih =>
    rw [wellFormed, if_neg high, Bool.and_eq_true] at whole
    exact ih whole.2

/-- A text without a lone surrogate is apart from all others. -/
theorem apart_of_wellFormed (whole : t.wellFormed = true) (x y : Text) : Apart x t ∧ Apart t y := by
  refine ⟨fun _ _ v head _ => not_isLow_head whole v head, fun u last _ _ high => ?_⟩
  exact absurd high (by simp [not_isHigh_getLast whole u last])

/-- The first part of a text without a lone surrogate holds none unless a pair is cut. -/
theorem wellFormed_left_iff (whole : (s ++ t).wellFormed = true) : s.wellFormed = true ↔ Apart s t := by
  refine ⟨fun left => (apart_of_wellFormed left [] t).2, fun apart => ?_⟩
  induction s using wellFormed.induct with
  | case1 => rfl
  | case2 u =>
    cases t with
    | nil => exact whole
    | cons v r =>
      rw [List.singleton_append, wellFormed] at whole
      by_cases high : isHigh u = true
      · rw [if_pos high, Bool.and_eq_true, apart u rfl v rfl high] at whole
        exact absurd whole.1 Bool.false_ne_true
      · rw [if_neg high, Bool.and_eq_true] at whole
        simpa [wellFormed, high] using whole.1
  | case3 u v r high ih =>
    rw [List.cons_append, List.cons_append, wellFormed, if_pos high, Bool.and_eq_true] at whole
    rw [wellFormed, if_pos high, whole.1, ih whole.2 apart.of_cons.of_cons]
    rfl
  | case4 u v r high ih =>
    rw [List.cons_append, List.cons_append, wellFormed, if_neg high, Bool.and_eq_true] at whole
    rw [wellFormed, if_neg high, whole.1, ih whole.2 apart.of_cons]
    rfl

end Seams

/-- A capital sigma between the points ends a word. -/
def endsWord (before after : List Nat) : Bool := startsCased before && !startsCased after

/-- The lower-case points of `ps` between others (those before it nearest first). -/
def lowerBetween (before : List Nat) : List Nat → List Nat → List Nat
  | [], _ => []
  | p :: ps, after => lowerPoint before p (ps ++ after) ++ lowerBetween (p :: before) ps after

/-- The lower case of `k` between `x` and `y`. -/
def lowerWithin (x k y : Text) : Text :=
  (lowerBetween x.points.reverse k.points y.points).flatMap ofPoint

section Pieces

variable (before ps qs after : List Nat)

theorem lowerBetween_append : lowerBetween before (ps ++ qs) after =
    lowerBetween before ps (qs ++ after) ++ lowerBetween (ps.reverse ++ before) qs after := by
  induction ps generalizing before with
  | nil => rfl
  | cons p ps ih =>
    rw [List.cons_append, lowerBetween, lowerBetween, ih, List.reverse_cons, List.append_assoc,
      List.append_assoc, List.append_assoc]
    rfl

theorem lowerBetween_nil : lowerBetween before ps [] = lowerPoints before ps := by
  induction ps generalizing before with
  | nil => rfl
  | cons p ps ih => rw [lowerBetween, lowerPoints, ih, List.append_nil]

theorem lower_eq_lowerWithin (k : Text) : k.lower = lowerWithin [] k [] := by
  rw [lower, lowerWithin, points, List.reverse_nil, lowerBetween_nil]

/-- The lower case of three texts is made of theirs, each between the others. -/
theorem lower_surrounded {x k y : Text} (left : Apart x (k ++ y)) (right : Apart k y) :
    (x ++ (k ++ y)).lower = lowerWithin [] x (k ++ y) ++ (lowerWithin x k y ++
      (lowerBetween (k.points.reverse ++ x.points.reverse) y.points []).flatMap ofPoint) := by
  rw [lower, ← lowerBetween_nil, points_append left, points_append right, lowerBetween_append,
    lowerBetween_append, lowerWithin, lowerWithin, points_append right]
  simp only [points, List.append_nil, List.reverse_nil, List.flatMap_append]

theorem lowerPoint_sigma : lowerPoint before 0x3A3 after = [if endsWord before after then 0x3C2 else 0x3C3] :=
  rfl

/-- What stands around a point other than a capital sigma does not show in its lower case. -/
theorem lowerPoint_other {p : Nat} (other : p ≠ 0x3A3) (before' after' : List Nat) :
    lowerPoint before p after = lowerPoint before' p after' := by
  rw [lowerPoint, lowerPoint, if_neg other, if_neg other]

/-- The lower case of a point takes as many units wherever it stands. -/
theorem length_lowerPoint (before' after' : List Nat) (p : Nat) :
    ((lowerPoint before p after).flatMap ofPoint).length =
      ((lowerPoint before' p after').flatMap ofPoint).length := by
  by_cases sigma : p = 0x3A3
  · subst sigma
    rw [lowerPoint_sigma, lowerPoint_sigma]
    split <;> split <;> rfl
  · rw [lowerPoint_other before after sigma before' after']

theorem length_lowerBetween (before' after' : List Nat) :
    ((lowerBetween before ps after).flatMap ofPoint).length =
      ((lowerBetween before' ps after').flatMap ofPoint).length := by
  induction ps generalizing before before' with
  | nil => rfl
  | cons p ps ih =>
    have first := length_lowerPoint before (ps ++ after) before' (ps ++ after') p
    have rest := ih (p :: before) (p :: before')
    rw [lowerBetween, lowerBetween, List.flatMap_append, List.flatMap_append, List.length_append,
      List.length_append, first, rest]

end Pieces

section Sigmas

/-- Each capital sigma among the points ends a word in both surroundings or in neither. -/
def SigmasAgree (before ps after before' after' : List Nat) : Prop :=
  ∀ p q, ps = p ++ 0x3A3 :: q →
    endsWord (p.reverse ++ before) (q ++ after) = endsWord (p.reverse ++ before') (q ++ after')

variable {before ps after before' after' : List Nat}

theorem lowerBetween_of_agree (agree : SigmasAgree before ps after before' after') :
    lowerBetween before ps after = lowerBetween before' ps after' := by
  induction ps generalizing before before' with
  | nil => rfl
  | cons c ps ih =>
    have rest : SigmasAgree (c :: before) ps after (c :: before') after' := by
      intro p q split
      have here := agree (c :: p) q (congrArg (c :: ·) split)
      simpa using here
    have first : lowerPoint before c (ps ++ after) = lowerPoint before' c (ps ++ after') := by
      by_cases sigma : c = 0x3A3
      · subst sigma
        have here : endsWord before (ps ++ after) = endsWord before' (ps ++ after') := agree [] ps rfl
        rw [lowerPoint_sigma, lowerPoint_sigma, here]
      · exact lowerPoint_other _ _ sigma _ _
    rw [lowerBetween, lowerBetween, first, ih rest]

/-- The units at the place of a sigma tell whether it ends a word. -/
theorem agree_of_lowerBetween (same : (lowerBetween before ps after).flatMap ofPoint =
    (lowerBetween before' ps after').flatMap ofPoint) : SigmasAgree before ps after before' after' := by
  rintro p q rfl
  have length := length_lowerBetween before p (0x3A3 :: q ++ after) before' (0x3A3 :: q ++ after')
  simp only [lowerBetween_append, lowerBetween, List.flatMap_append] at same
  have tails := (List.append_inj same length).2
  have units := (List.append_inj tails (length_lowerPoint _ _ _ _ _)).1
  rw [lowerPoint_sigma, lowerPoint_sigma] at units
  cases ends : endsWord (p.reverse ++ before) (q ++ after) <;>
    cases ends' : endsWord (p.reverse ++ before') (q ++ after')
  · rfl
  · rw [ends, ends'] at units
    exact absurd units (by decide)
  · rw [ends, ends'] at units
    exact absurd units (by decide)
  · rfl

/-- No capital sigma of `k` starts or stops to end a word between `x` and `y`. -/
def Undisturbed (x k y : Text) : Prop :=
  SigmasAgree x.points.reverse k.points y.points [] []

theorem lowerWithin_eq_lower_iff {x k y : Text} : lowerWithin x k y = k.lower ↔ Undisturbed x k y := by
  rw [lower_eq_lowerWithin]
  exact ⟨agree_of_lowerBetween, fun agree => congrArg (·.flatMap ofPoint) (lowerBetween_of_agree agree)⟩

theorem length_lowerWithin (x k y : Text) : (lowerWithin x k y).length = k.lower.length := by
  rw [lower_eq_lowerWithin]
  exact length_lowerBetween _ _ _ _ _

end Sigmas

end RequestCompiler.Text
