import RequestCompiler.Proofs.Compile.Consistency
import RequestCompiler.Proofs.Matching.Ranking

/-!
# More evidence for the selected bundle

A text favours a bundle over another text if the bundle has no fewer points on it and every other one has
no more. The first place of the greatest score stays where it is then (`Leads.of_favours`), and so does the
selection. The adjusted score does not fall either: it loses a point to a rival, but a bundle without more
points than before has a rival only if it had one (`Favours.rivalled`). `compile_favoured` says what this
means for a compilation.
-/

namespace RequestCompiler

namespace Matching

/-- The bundle has no fewer points on the second text, and every other one has no more. -/
structure Favours (r : Registry) (b : Bundle) (t t' : Text) : Prop where
  own : points t b ≤ points t' b
  others : ∀ other ∈ r.bundles, other.id ≠ b.id → points t' other ≤ points t other

section Favoured

variable {r : Registry} {t t' : Text} {b : Bundle} (favours : Favours r b t t')
include favours

/-- What leads the registration order leads it on a text that favours it. -/
theorem Leads.of_favours {before after : List Bundle} (distinct : (r.bundles.map Bundle.id).Nodup)
    (h : Leads (points t) r.bundles before b after) : Leads (points t') r.bundles before b after := by
  have fewer : ∀ x ∈ before ++ after, points t' x ≤ points t x := by
    intro x member
    obtain ⟨registered, differ⟩ := (h.mem_others distinct).1 member
    exact favours.others x registered differ
  refine ⟨h.split, Nat.lt_of_lt_of_le h.positive favours.own, fun x hx => ?_, fun x hx => ?_⟩
  · calc points t' x ≤ points t x := fewer x (List.mem_append_left _ hx)
      _ < points t b := h.above x hx
      _ ≤ points t' b := favours.own
  · calc points t' x ≤ points t x := fewer x (List.mem_append_right _ hx)
      _ ≤ points t b := h.atLeast x hx
      _ ≤ points t' b := favours.own

/-- A rival on the favouring text was one before, unless the bundle has gained points. -/
theorem Favours.rivalled (rivalled : Rivalled r t' b) : Rivalled r t b ∨ points t b < points t' b := by
  obtain ⟨other, registered, differ, positive, close⟩ := rivalled
  have fewer := favours.others other registered differ
  have own := favours.own
  rcases Nat.lt_or_ge (points t b) (points t' b) with more | same
  · exact .inr more
  · exact .inl ⟨other, registered, differ, by omega, by omega⟩

variable (distinct : (r.bundles.map Bundle.id).Nodup) (selected : (run r t).bundle = some b)
include distinct selected

/-- The selected bundle leads on both texts, in the same place. -/
theorem Favours.leads : ∃ before after, Leads (points t) r.bundles before b after ∧
    Leads (points t') r.bundles before b after := by
  rcases zero_or_leads r t with zeros | ⟨before, b', after, leads⟩
  · rw [run_bundle_eq_none_iff.2 zeros] at selected
    cases selected
  · rw [run_bundle leads distinct] at selected
    obtain rfl := Option.some.inj selected
    exact ⟨before, after, leads, leads.of_favours favours distinct⟩

theorem Favours.run_bundle_eq : (run r t').bundle = some b := by
  obtain ⟨before, after, -, leads⟩ := favours.leads distinct selected
  exact run_bundle leads distinct

/-- The adjusted score of the selected bundle does not fall. -/
theorem Favours.adjustedScore_le : (run r t).adjustedScore ≤ (run r t').adjustedScore := by
  obtain ⟨before, after, leads, leads'⟩ := favours.leads distinct selected
  have own := favours.own
  rw [run_adjustedScore leads, run_adjustedScore leads']
  -- The penalty on the second text costs a point that was gained, or was paid on the first one too.
  by_cases ambiguous : (run r t').ambiguous = true
  · rw [if_pos ambiguous]
    rcases favours.rivalled ((run_ambiguous_iff leads' distinct).1 ambiguous) with rivalled | gained
    · rw [if_pos ((run_ambiguous_iff leads distinct).2 rivalled)]
      omega
    · split <;> omega
  · rw [if_neg ambiguous]
    split <;> omega

end Favoured

end Matching

namespace Registry

open Matching

variable {r : Registry} {t t' : Text} {b : Bundle}

/-- What is rendered is rendered alike on a text that selects the same bundle with no lower adjusted
score. -/
theorem compile_of_rendered {q : Request} {c : Compilation} (compiled : r.compile q = .ok c)
    (state : c.state = .render) (selected : (run r t').bundle = (run r q.text).bundle)
    (high : (run r q.text).adjustedScore ≤ (run r t').adjustedScore) :
    ∃ c', r.compile { q with text := t' } = .ok c' ∧ c'.state = .render ∧ c'.dsl = c.dsl := by
  cases compile_eq_ok_iff.1 compiled with
  | clarified => cases state
  | @rendered b dsl decided written =>
    obtain ⟨five, own⟩ := renderedBundle?_eq_some_iff.1 decided
    have decided' : renderedBundle? (run r t') = some b :=
      renderedBundle?_eq_some_iff.2 ⟨Nat.le_trans five high, selected.trans own⟩
    exact ⟨_, compile_eq_ok_iff.2 (.rendered (q := { q with text := t' }) decided' written), rfl, rfl⟩

/-- A text on which the selected bundle has no fewer points and every other one no more is matched with the
same bundle, with no lower adjusted score and no lower confidence. A request that is rendered on the first
text is rendered on the second, with the same directives. -/
theorem compile_favoured {document : Json} (accepted : ofDocument document = .ok r)
    (selected : (run r t).bundle = some b) (favours : Favours r b t t') :
    (run r t').bundle = some b ∧ (run r t).adjustedScore ≤ (run r t').adjustedScore ∧
      (Confidence.ofScore (run r t).adjustedScore).AtMost (.ofScore (run r t').adjustedScore) ∧
      ∀ (q : Request) (c : Compilation), r.compile { q with text := t } = .ok c → c.state = .render →
        ∃ c', r.compile { q with text := t' } = .ok c' ∧ c'.state = .render ∧ c'.dsl = c.dsl ∧
          c.confidence.AtMost c'.confidence := by
  have distinct := ofDocument_nodup accepted
  have same := favours.run_bundle_eq distinct selected
  have higher := favours.adjustedScore_le distinct selected
  have surer := Confidence.atMost_ofScore higher
  refine ⟨same, higher, surer, fun q c compiled state => ?_⟩
  obtain ⟨c', compiled', state', dsl⟩ :=
    compile_of_rendered compiled state (same.trans selected.symm) higher
  obtain ⟨matched, confidence, -⟩ := (compile_eq_ok_iff.1 compiled).common
  obtain ⟨matched', confidence', -⟩ := (compile_eq_ok_iff.1 compiled').common
  rw [matched] at confidence
  rw [matched'] at confidence'
  exact ⟨c', compiled', state', dsl, confidence ▸ confidence' ▸ surer⟩

/-- Two bundles that share three keywords, of which the first has one more. -/
def sharedBundles : List (Text × List Text) :=
  [("review", ["check", "code", "review", "tests"]), ("audit", ["code", "review", "Check"])]

def firstBundle : Bundle := ⟨"review", "review", [], [], ["check", "code", "review", "tests"], .arr []⟩

def secondBundle : Bundle := ⟨"audit", "audit", [], [], ["code", "review", "Check"], .arr []⟩

theorem leads_shared : Leads (points "Check the code review") (worded sharedBundles).bundles []
    firstBundle [secondBundle] :=
  ⟨rfl, by decide +kernel, nofun, by decide +kernel⟩

theorem favours_first : Favours (worded sharedBundles) firstBundle "Check the code review"
    "Check the code review and its tests" where
  own := by decide +kernel
  others := by
    have fewer : points "Check the code review and its tests" secondBundle ≤
        points "Check the code review" secondBundle := by decide +kernel
    intro other member differ
    rcases List.mem_cons.1 member with rfl | member
    · exact absurd rfl differ
    · exact List.mem_singleton.1 member ▸ fewer

/-- The bundles tie on the first text, and the tie is rendered at the threshold; the second text breaks
it. -/
theorem compile_favoured_tied :
    (run (worded sharedBundles) "Check the code review").adjustedScore = 5 ∧
      (run (worded sharedBundles) "Check the code review and its tests").bundle = some firstBundle ∧
      ∃ c c', (worded sharedBundles).compile (.ofText "Check the code review") = .ok c ∧
        c.state = .render ∧
        (worded sharedBundles).compile (.ofText "Check the code review and its tests") = .ok c' ∧
        c'.state = .render ∧ c'.dsl = c.dsl ∧ c.confidence.AtMost c'.confidence := by
  have accepted : ofDocument (wordedDocument sharedBundles) = .ok (worded sharedBundles) := rfl
  have distinct := ofDocument_nodup accepted
  have selected := run_bundle leads_shared distinct
  have rivalled : Rivalled (worded sharedBundles) "Check the code review" firstBundle :=
    ⟨secondBundle, by simp [worded, sharedBundles, secondBundle], by decide, by decide +kernel,
      by decide +kernel⟩
  have tied : (run (worded sharedBundles) "Check the code review").adjustedScore = 5 := by
    rw [run_adjustedScore leads_shared, if_pos ((run_ambiguous_iff leads_shared distinct).2 rivalled)]
    decide +kernel
  have decided : renderedBundle? (run (worded sharedBundles) "Check the code review") = some firstBundle :=
    renderedBundle?_eq_some_iff.2 ⟨Nat.le_of_eq tied.symm, selected⟩
  have registered : ∀ id ∈ [firstBundle.id], (worded sharedBundles).hasBundle id = true := by decide
  have written : (worded sharedBundles).canonicalize .dev [firstBundle.id] [] = .ok _ :=
    canonicalize_eq_ok_iff.2 ⟨registered, Program.render_eq_ok_iff.2 ⟨List.forall_mem_nil _, rfl⟩⟩
  have compiled : (worded sharedBundles).compile (.ofText "Check the code review") = .ok _ :=
    compile_eq_ok_iff.2 (.rendered decided written)
  obtain ⟨same, -, -, renders⟩ := compile_favoured accepted selected favours_first
  obtain ⟨c', compiled', state', dsl, surer⟩ := renders (.ofText "Check the code review") _ compiled rfl
  exact ⟨tied, same, _, c', compiled, rfl, compiled', state', dsl, surer⟩

end Registry

end RequestCompiler
