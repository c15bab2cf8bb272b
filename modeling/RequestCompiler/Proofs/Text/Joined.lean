import RequestCompiler.Proofs.Text.Pieces
import RequestCompiler.Proofs.Text.Sigma

/-!
# What stands in joined texts

What stands in texts that are joined stands in one of them or `Straddles` several (`infix_join_iff`). A space
belongs to no word, so texts joined by spaces are put into lower case one by one (`lower_join`).
-/

namespace RequestCompiler.Text

section Occurrence

variable {sep : UInt16} {k s t : Text} {ts : List Text}

/-- A start of two texts is one of the first, or the first and a start of the second. -/
theorem prefix_append_iff : k <+: s ++ t ↔ k <+: s ∨ ∃ r, k = s ++ r ∧ r <+: t := by
  constructor
  · rintro ⟨r, split⟩
    rcases List.append_eq_append_iff.1 split with ⟨rest, whole, -⟩ | ⟨rest, whole, behind⟩
    · exact .inl ⟨rest, whole.symm⟩
    · exact .inr ⟨rest, whole, r, behind.symm⟩
  · rintro (first | ⟨r, rfl, second⟩)
    · exact first.trans (List.prefix_append s t)
    · exact (List.prefix_append_right_inj s).2 second

/-- A start of joined texts is made of whole ones and a start of the next. -/
theorem prefix_join_iff (ne : ts ≠ []) : k <+: join [sep] ts ↔
    ∃ whole t rest y, ts = whole ++ t :: rest ∧ y <+: t ∧ k = join [sep] (whole ++ [y]) := by
  induction ts generalizing k with
  | nil => exact absurd rfl ne
  | cons s ts ih =>
    constructor
    · intro start
      have own : k <+: s → ∃ whole t rest y, s :: ts = whole ++ t :: rest ∧ y <+: t ∧
          k = join [sep] (whole ++ [y]) := fun start => ⟨[], s, ts, k, rfl, start, rfl⟩
      by_cases last : ts = []
      · subst last
        exact own start
      · rw [join_cons last, prefix_append_iff] at start
        rcases start with first | ⟨r, rfl, behind⟩
        · exact own first
        rcases List.prefix_cons_iff.1 behind with rfl | ⟨r, rfl, later⟩
        · rw [List.append_nil] at own ⊢
          exact own List.prefix_rfl
        · obtain ⟨whole, t, rest, y, rfl, start, rfl⟩ := (ih last).1 later
          exact ⟨s :: whole, t, rest, y, rfl, start, (join_cons (by simp) s).symm⟩
    · rintro ⟨whole, t, rest, y, split, start, rfl⟩
      cases whole with
      | nil =>
        obtain ⟨rfl, rfl⟩ := List.cons.inj split
        obtain ⟨r, joined⟩ := exists_join_eq_append sep s ts
        exact start.trans ⟨r, joined.symm⟩
      | cons s' whole =>
        obtain ⟨rfl, rfl⟩ := List.cons.inj split
        have later : join [sep] (whole ++ [y]) <+: join [sep] (whole ++ t :: rest) :=
          (ih (by simp)).2 ⟨whole, t, rest, y, rfl, start, rfl⟩
        rw [List.cons_append, join_cons (by simp), join_cons (by simp), List.prefix_append_right_inj,
          List.cons_prefix_cons]
        exact ⟨rfl, later⟩

/-- The text is an end of one of the texts, those that follow it and a start of a later one, with the
separator between them. -/
def Straddles (sep : UInt16) (ts : List Text) (k : Text) : Prop :=
  ∃ before s between t after x y, ts = before ++ s :: (between ++ t :: after) ∧ x <:+ s ∧ y <+: t ∧
    k = join [sep] (x :: (between ++ [y]))

theorem Straddles.mem_sep (straddles : Straddles sep ts k) : sep ∈ k := by
  obtain ⟨-, -, between, -, -, x, y, -, -, -, rfl⟩ := straddles
  rw [join_cons (by simp)]
  simp

theorem not_straddles_nil : ¬Straddles sep [] k := by
  rintro ⟨before, s, between, t, after, x, y, split, -⟩
  exact absurd split (by simp)

theorem not_straddles_singleton : ¬Straddles sep [s] k := by
  rintro ⟨before, s', between, t, after, x, y, split, -⟩
  have length := congrArg List.length split
  simp only [List.length_nil, List.length_append, List.length_cons] at length
  omega

/-- What straddles texts is within all but the first, or it begins in the first and goes on behind it. -/
theorem straddles_cons_iff (ne : ts ≠ []) : Straddles sep (s :: ts) k ↔
    Straddles sep ts k ∨ ∃ x r, k = x ++ sep :: r ∧ x <:+ s ∧ r <+: join [sep] ts := by
  constructor
  · rintro ⟨before, s', between, t, after, x, y, split, end_, start, rfl⟩
    cases before with
    | nil =>
      obtain ⟨rfl, rfl⟩ := List.cons.inj split
      have later : join [sep] (between ++ [y]) <+: join [sep] (between ++ t :: after) :=
        (prefix_join_iff ne).2 ⟨between, t, after, y, rfl, start, rfl⟩
      exact .inr ⟨x, _, join_cons (by simp) x, end_, later⟩
    | cons _ before =>
      obtain ⟨rfl, rfl⟩ := List.cons.inj split
      exact .inl ⟨before, s', between, t, after, x, y, rfl, end_, start, rfl⟩
  · rintro (⟨before, s', between, t, after, x, y, rfl, end_, start, rfl⟩ | ⟨x, r, rfl, end_, later⟩)
    · exact ⟨s :: before, s', between, t, after, x, y, rfl, end_, start, rfl⟩
    · obtain ⟨between, t, after, y, rfl, start, rfl⟩ := (prefix_join_iff ne).1 later
      exact ⟨[], s, between, t, after, x, y, rfl, end_, start, (join_cons (by simp) x).symm⟩

/-- What stands in joined texts and is not empty stands in one of them or straddles several. -/
theorem infix_join_iff (solid : k ≠ []) :
    k <:+: join [sep] ts ↔ (∃ t ∈ ts, k <:+: t) ∨ Straddles sep ts k := by
  induction ts with
  | nil => simp [join, not_straddles_nil, solid]
  | cons s ts ih =>
    by_cases last : ts = []
    · subst last
      simp [join, not_straddles_singleton]
    rw [join_cons last, List.infix_append_iff, List.infix_cons_iff, ih, List.exists_mem_cons_iff,
      straddles_cons_iff last]
    constructor
    · rintro (own | (behind | later | straddles) | ⟨x, r, rfl, end_, behind⟩)
      · exact .inl (.inl own)
      · rcases List.prefix_cons_iff.1 behind with none | ⟨r, rfl, later⟩
        · exact absurd none solid
        · exact .inr (.inr ⟨[], r, rfl, List.nil_suffix, later⟩)
      · exact .inl (.inr later)
      · exact .inr (.inl straddles)
      · rcases List.prefix_cons_iff.1 behind with rfl | ⟨r, rfl, later⟩
        · rw [List.append_nil]
          exact .inl (.inl end_.isInfix)
        · exact .inr (.inr ⟨x, r, rfl, end_, later⟩)
    · rintro ((own | later) | straddles | ⟨x, r, rfl, end_, behind⟩)
      · exact .inl own
      · exact .inr (.inl (.inr (.inl later)))
      · exact .inr (.inl (.inr (.inr straddles)))
      · exact .inr (.inr ⟨x, _, rfl, end_, List.cons_prefix_cons.2 ⟨rfl, behind⟩⟩)

end Occurrence

section Lower

/-- No word goes on over a space. -/
theorem startsCased_append_space (ps qs : List Nat) : startsCased (ps ++ 0x20 :: qs) = startsCased ps := by
  by_cases through : LookedThrough ps
  · have solid : isCaseIgnorable 0x20 = false := by decide +kernel
    have uncased : isCased 0x20 = false := by decide +kernel
    rw [startsCased_append_of_through through, startsCased_of_through through, startsCased,
      List.dropWhile_cons_of_neg (by simp [solid])]
    exact uncased
  · exact startsCased_append through _

theorem lower_append_space (s t : Text) :
    (s ++ unit ' ' :: t).lower = s.lower ++ unit ' ' :: t.lower := by
  have left : Apart s ([unit ' '] ++ t) := by
    rintro u - v ⟨⟩ -
    decide
  have right : Apart [unit ' '] t := by
    rintro u ⟨⟩ v - high
    exact absurd high (by decide)
  have split : points ([unit ' '] ++ t) = 0x20 :: t.points := points_append right
  have before : lowerWithin [] s ([unit ' '] ++ t) = s.lower := by
    refine lowerWithin_eq_lower_iff.2 fun p q _ => ?_
    rw [endsWord, endsWord, split, startsCased_append_space, points, List.reverse_nil, List.append_nil,
      List.append_nil]
  have behind : lowerBetween ((points [unit ' ']).reverse ++ s.points.reverse) t.points [] =
      lowerBetween [] t.points [] := by
    refine lowerBetween_of_agree fun p q _ => ?_
    rw [endsWord, endsWord, List.append_nil, List.append_nil]
    exact congrArg (· && _) (startsCased_append_space _ _)
  have whole := lower_surrounded left right
  rw [before, behind, lowerBetween_nil] at whole
  exact whole

theorem lower_join (ts : List Text) : (join [unit ' '] ts).lower = join [unit ' '] (ts.map lower) := by
  induction ts with
  | nil => rfl
  | cons t ts ih =>
    by_cases last : ts = []
    · subst last
      rfl
    · rw [join_cons last, lower_append_space, ih, List.map_cons, join_cons (by simpa using last)]

end Lower

end RequestCompiler.Text
