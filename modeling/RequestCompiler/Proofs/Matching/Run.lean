import RequestCompiler.Proofs.Matching.Selection
import RequestCompiler.Proofs.Registry.Accepted
import RequestCompiler.Proofs.Text.Lower

/-!
# Matches against a registry

What a match says is stated about the bundles themselves: `run_of_zero` when none has points on
the request, and otherwise `run_bundle`, `run_topScore`, `run_adjustedScore` and
`run_ambiguous_iff` about the one that leads the registration order.
-/

namespace RequestCompiler.Matching

/-- The score of a bundle on a request. -/
def scoreOn (t : Text) (b : Bundle) : BundleScore := scoreBundle b (normalize t)

/-- The points that a bundle scores on a request. -/
def points (t : Text) (b : Bundle) : Nat := (scoreOn t b).score

/-- Another bundle has points on the request, and one point less at most. -/
def Rivalled (r : Registry) (t : Text) (b : Bundle) : Prop :=
  ∃ other ∈ r.bundles, other.id ≠ b.id ∧ 0 < points t other ∧ points t b ≤ points t other + 1

theorem bundleId_scoreOn (t : Text) (b : Bundle) : (scoreOn t b).bundleId = b.id := by
  unfold scoreOn scoreBundle
  split <;> rfl

/-- No bundle has points on a blank text. -/
theorem points_of_blank {t : Text} (blank : ∀ u ∈ t, Text.isBlank u = true) (b : Bundle) :
    points t b = 0 := by
  have same : (normalize t).isBlankText = true := by
    rw [normalize, Text.lower_blank blank]
    exact Text.isBlankText_iff.2 blank
  rw [points, scoreOn, scoreBundle, if_pos same]

variable {r : Registry} {t : Text}

theorem run_of_zero (zeros : ∀ b ∈ r.bundles, points t b = 0) :
    run r t = ⟨none, 0, none, false, 0, [], false, false, scoreBundles r t⟩ := by
  have nothing : best? (scoreBundles r t) = none :=
    best?_eq_none_iff.2 (List.forall_mem_map.2 zeros)
  rw [run, ofScores, nothing]

/-- A bundle leads the registration order unless none has points. -/
theorem zero_or_leads (r : Registry) (t : Text) : (∀ b ∈ r.bundles, points t b = 0) ∨
    ∃ before b after, Leads (points t) r.bundles before b after := by
  rcases best?_spec (scoreBundles r t) with ⟨-, zeros⟩ | ⟨_, _, _, -, leads⟩
  · exact .inl (List.forall_mem_map.1 zeros)
  · obtain ⟨before, b, after, -, -, -, leads⟩ := leads.of_map
    exact .inr ⟨before, b, after, leads⟩

section Leading

variable {before after : List Bundle} {b : Bundle}

variable (h : Leads (points t) r.bundles before b after)
include h

theorem leads_scores :
    Leads (·.score) (scoreBundles r t) (before.map (scoreOn t)) (scoreOn t b)
      (after.map (scoreOn t)) := h.map

/-- The leading bundle is selected. -/
theorem run_bundle (distinct : (r.bundles.map Bundle.id).Nodup) : (run r t).bundle = some b := by
  rw [run, ofScores_eq r (leads_scores h)]
  simp only [bundleId_scoreOn, Registry.bundle?_eq_some distinct h.mem]

theorem run_topScore : (run r t).topScore = points t b := by
  rw [run, ofScores_eq r (leads_scores h)]
  rfl

theorem run_adjustedScore :
    (run r t).adjustedScore = if (run r t).ambiguous then points t b - 1 else points t b := by
  rw [run, ofScores_eq r (leads_scores h)]
  rfl

/-- A match is ambiguous if the selected bundle is rivalled. -/
theorem run_ambiguous_iff (distinct : (r.bundles.map Bundle.id).Nodup) :
    (run r t).ambiguous = true ↔ Rivalled r t b := by
  have others := fun x => h.mem_others distinct (x := x)
  rw [run, ambiguous_iff (leads_scores h), ← List.map_append]
  constructor
  · rintro ⟨_, hs, positive, close⟩
    obtain ⟨other, member, rfl⟩ := List.mem_map.1 hs
    obtain ⟨registered, differ⟩ := (others other).1 member
    exact ⟨other, registered, differ, positive, close⟩
  · rintro ⟨other, registered, differ, positive, close⟩
    have member := (others other).2 ⟨registered, differ⟩
    exact ⟨scoreOn t other, List.mem_map_of_mem member, positive, close⟩

end Leading

/-- No bundle is selected exactly if none has points. -/
theorem run_bundle_eq_none_iff : (run r t).bundle = none ↔ ∀ b ∈ r.bundles, points t b = 0 := by
  rcases zero_or_leads r t with zeros | ⟨before, b, after, leads⟩
  · exact iff_of_true (by rw [run_of_zero zeros]) zeros
  · refine iff_of_false (fun none => ?_) fun zeros => ?_
    · rw [run, ofScores_eq r (leads_scores leads)] at none
      simp only [bundleId_scoreOn] at none
      exact List.find?_eq_none.1 none b leads.mem (beq_self_eq_true _)
    · exact absurd (zeros b leads.mem) (Nat.ne_of_gt leads.positive)

/-- Points come from a selected bundle. -/
theorem run_bundle_ne_none (positive : 0 < (run r t).adjustedScore) : (run r t).bundle ≠ none := by
  intro none
  rw [run_of_zero (run_bundle_eq_none_iff.1 none)] at positive
  exact Nat.lt_irrefl 0 positive

section Accepted

variable (distinct : (r.bundles.map Bundle.id).Nodup)
include distinct

/-- The selected bundle has the top score, and no bundle has more. -/
theorem run_selected {b : Bundle} (selected : (run r t).bundle = some b) :
    b ∈ r.bundles ∧ points t b = (run r t).topScore := by
  rcases zero_or_leads r t with zeros | ⟨before, b', after, leads⟩
  · rw [run_of_zero zeros] at selected
    cases selected
  · rw [run_bundle leads distinct] at selected
    obtain rfl := Option.some.inj selected
    exact ⟨leads.mem, (run_topScore leads).symm⟩

/-- A positive adjusted score is a top score that is as high, or one higher beside a rival. -/
theorem le_run_adjustedScore_iff {n : Nat} (positive : 0 < n) :
    n ≤ (run r t).adjustedScore ↔ n ≤ (run r t).topScore ∧
      ∀ b, (run r t).bundle = some b → Rivalled r t b → n + 1 ≤ (run r t).topScore := by
  rcases zero_or_leads r t with zeros | ⟨before, b, after, leads⟩
  · rw [run_of_zero zeros]
    refine iff_of_false ?_ fun h => ?_
    · exact Nat.not_le.2 positive
    · exact absurd h.1 (Nat.not_le.2 positive)
  · have some : ∀ b', (run r t).bundle = some b' ↔ b = b' := by simp [run_bundle leads distinct]
    rw [run_adjustedScore leads, run_topScore leads]
    simp only [some, forall_eq', ← run_ambiguous_iff leads distinct]
    cases (run r t).ambiguous with
    | false => simp
    | true =>
      simp only [if_true, forall_const]
      omega

end Accepted

/-- No bundle has more points than the top score. -/
theorem points_le_topScore : ∀ b ∈ r.bundles, points t b ≤ (run r t).topScore := by
  rcases zero_or_leads r t with zeros | ⟨before, b, after, leads⟩
  · exact fun b hb => zeros b hb ▸ Nat.zero_le _
  · rw [run_topScore leads]
    exact leads.le

end RequestCompiler.Matching
