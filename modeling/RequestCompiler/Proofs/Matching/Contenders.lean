import RequestCompiler.Proofs.Matching.Run

/-!
# The bundles that have points

A match is decided among the contenders, the bundles with points on the request. What it says of scores
depends on their points in any order (`Figures.of_perm`); which of them is selected depends on their order
too, if several have the most points (`run_bundle_of_soleTop`, `run_bundle_of_contenders_eq`).
-/

namespace RequestCompiler.Matching

/-- The bundles that have points on the request, in the order of registration. -/
def contenders (r : Registry) (t : Text) : List Bundle := r.bundles.filter fun b => 0 < points t b

/-- The matches say the same of scores. -/
structure Figures (m m' : Match) : Prop where
  topScore : m.topScore = m'.topScore
  secondScore : m.secondScore = m'.secondScore
  ambiguous : m.ambiguous = m'.ambiguous
  adjustedScore : m.adjustedScore = m'.adjustedScore

/-- At most one of the registered bundles has the top score. -/
def SoleTop (r : Registry) (t : Text) : Prop :=
  ∀ b ∈ r.bundles, ∀ b' ∈ r.bundles, points t b = (run r t).topScore →
    points t b' = (run r t).topScore → b = b'

/-- What leads a list leads those of its elements that have points. -/
theorem Leads.filter {α : Type} {points : α → Nat} {as before after : List α} {a : α}
    (h : Leads points as before a after) :
    Leads points (as.filter fun x => 0 < points x) (before.filter fun x => 0 < points x) a
      (after.filter fun x => 0 < points x) where
  split := by
    rw [h.split, List.filter_append, List.filter_cons_of_pos (by simpa using h.positive)]
  positive := h.positive
  above x member := h.above x (List.mem_of_mem_filter member)
  atLeast x member := h.atLeast x (List.mem_of_mem_filter member)

variable {r r' : Registry} {t : Text}

theorem mem_contenders {b : Bundle} : b ∈ contenders r t ↔ b ∈ r.bundles ∧ 0 < points t b := by
  rw [contenders, List.mem_filter, decide_eq_true_iff]

theorem contenders_eq_nil_iff : contenders r t = [] ↔ ∀ b ∈ r.bundles, points t b = 0 := by
  simp [contenders, List.filter_eq_nil_iff]

section Scores

theorem positiveScores_scoreBundles (r : Registry) (t : Text) :
    positiveScores (scoreBundles r t) =
      ((contenders r t).map (points t)).mergeSort fun a b => b ≤ a := by
  rw [positiveScores, scoreBundles, List.map_map, List.filter_map]
  rfl

/-- The positive scores are sorted, so the order of the contenders does not show in them. -/
theorem positiveScores_of_perm (same : (contenders r t).Perm (contenders r' t)) :
    positiveScores (scoreBundles r t) = positiveScores (scoreBundles r' t) := by
  have perm : (positiveScores (scoreBundles r t)).Perm (positiveScores (scoreBundles r' t)) := by
    rw [positiveScores_scoreBundles, positiveScores_scoreBundles]
    exact (List.mergeSort_perm _ _).trans ((same.map _).trans (List.mergeSort_perm _ _).symm)
  exact List.Perm.eq_of_pairwise (fun _ _ _ _ ge le => Nat.le_antisymm le ge)
    (positiveScores_descending _) (positiveScores_descending _) perm

theorem positiveScores_eq_nil {scores : List BundleScore} (zeros : ∀ s ∈ scores, s.score = 0) :
    positiveScores scores = [] := by
  rw [List.eq_nil_iff_forall_not_mem]
  intro n member
  obtain ⟨positive, s, listed, rfl⟩ := mem_positiveScores.1 member
  exact Nat.ne_of_gt positive (zeros s listed)

/-- The first two of the positive scores are the top score and the second one. -/
theorem run_scores_eq (r : Registry) (t : Text) :
    (run r t).topScore = (positiveScores (scoreBundles r t)).headD 0 ∧
      (run r t).secondScore = (positiveScores (scoreBundles r t))[1]? := by
  unfold run ofScores
  rcases best?_spec (scoreBundles r t) with ⟨none, zeros⟩ | ⟨before, b, after, some, leads⟩
  · rw [none, positiveScores_eq_nil zeros]
    exact ⟨rfl, rfl⟩
  · rw [some, positiveScores_eq_cons leads]
    exact ⟨rfl, rfl⟩

/-- The scores of a match tell whether it is ambiguous. -/
theorem run_ambiguous_eq (r : Registry) (t : Text) : (run r t).ambiguous =
    (run r t).secondScore.any fun s => (run r t).topScore - s ≤ ambiguityGap := by
  unfold run ofScores
  split <;> rfl

theorem run_adjustedScore_eq (r : Registry) (t : Text) : (run r t).adjustedScore =
    if (run r t).ambiguous then (run r t).topScore - ambiguityPenalty else (run r t).topScore := by
  unfold run ofScores
  split <;> rfl

/-- Matches among the same contenders say the same of scores. -/
theorem Figures.of_perm (same : (contenders r t).Perm (contenders r' t)) :
    Figures (run r t) (run r' t) := by
  obtain ⟨top, second⟩ := run_scores_eq r t
  obtain ⟨top', second'⟩ := run_scores_eq r' t
  have scores := positiveScores_of_perm same
  have topScore : (run r t).topScore = (run r' t).topScore := by rw [top, top', scores]
  have secondScore : (run r t).secondScore = (run r' t).secondScore := by rw [second, second', scores]
  have ambiguous : (run r t).ambiguous = (run r' t).ambiguous := by
    rw [run_ambiguous_eq, run_ambiguous_eq, topScore, secondScore]
  refine ⟨topScore, secondScore, ambiguous, ?_⟩
  rw [run_adjustedScore_eq, run_adjustedScore_eq, topScore, ambiguous]

end Scores

section Selected

/-- A contender leads, unless there is none. -/
theorem contenders_nil_or_leads (r : Registry) (t : Text) : contenders r t = [] ∨
    ∃ before b after, Leads (points t) (contenders r t) before b after := by
  rcases zero_or_leads r t with zeros | ⟨before, b, after, leads⟩
  · exact .inl (contenders_eq_nil_iff.2 zeros)
  · exact .inr ⟨_, b, _, leads.filter⟩

/-- The contender that leads the others is selected. -/
theorem run_bundle_of_leads (distinct : (r.bundles.map Bundle.id).Nodup) {before after : List Bundle}
    {b : Bundle} (leads : Leads (points t) (contenders r t) before b after) :
    (run r t).bundle = some b := by
  rcases zero_or_leads r t with zeros | ⟨before', b', after', leads'⟩
  · have member := leads.mem
    rw [contenders_eq_nil_iff.2 zeros] at member
    cases member
  · obtain ⟨-, rfl, -⟩ := leads.unique leads'.filter
    exact run_bundle leads' distinct

theorem run_bundle_of_nil (empty : contenders r t = []) : (run r t).bundle = none :=
  run_bundle_eq_none_iff.2 (contenders_eq_nil_iff.1 empty)

variable (distinct : (r.bundles.map Bundle.id).Nodup) (distinct' : (r'.bundles.map Bundle.id).Nodup)
include distinct distinct'

/-- Contenders in the same order give the same bundle. -/
theorem run_bundle_of_contenders_eq (same : contenders r t = contenders r' t) :
    (run r t).bundle = (run r' t).bundle := by
  rcases contenders_nil_or_leads r t with empty | ⟨before, b, after, leads⟩
  · rw [run_bundle_of_nil empty, run_bundle_of_nil (same ▸ empty)]
  · rw [run_bundle_of_leads distinct leads, run_bundle_of_leads distinct' (same ▸ leads)]

/-- In whatever order the contenders are, the only one with the top score is selected. -/
theorem run_bundle_of_soleTop (same : (contenders r t).Perm (contenders r' t)) (sole : SoleTop r t) :
    (run r t).bundle = (run r' t).bundle := by
  rcases zero_or_leads r t with zeros | ⟨before, b, after, leads⟩
  · have empty : contenders r t = [] := contenders_eq_nil_iff.2 zeros
    have empty' : contenders r' t = [] := (empty ▸ same).symm.eq_nil
    rw [run_bundle_of_nil empty, run_bundle_of_nil empty']
  · rcases zero_or_leads r' t with zeros' | ⟨before', b', after', leads'⟩
    · have member : b ∈ contenders r' t := same.mem_iff.1 (mem_contenders.2 ⟨leads.mem, leads.positive⟩)
      rw [contenders_eq_nil_iff.2 zeros'] at member
      cases member
    · have figures := Figures.of_perm same
      have member : b' ∈ contenders r t := same.mem_iff.2 (mem_contenders.2 ⟨leads'.mem, leads'.positive⟩)
      have top := run_topScore leads
      have top' := run_topScore leads'
      obtain rfl := sole b leads.mem b' (mem_contenders.1 member).1 top.symm
        (top'.symm.trans figures.topScore.symm)
      rw [run_bundle leads distinct, run_bundle leads' distinct']

end Selected

end RequestCompiler.Matching
