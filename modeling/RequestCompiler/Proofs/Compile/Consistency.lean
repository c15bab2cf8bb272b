import RequestCompiler.Proofs.Compile.Answer

/-!
# The parts of a result agree

`Registry.Consistent r q c` collects what the parts of a result say about each other, about the
request and about the scores of the bundles. Every result of an accepted document's registry is
consistent (`compile_consistent`): the rounded confidence, the adjusted score and the scores
themselves decide alike, and text, question and explanation follow that decision.
-/

namespace RequestCompiler.Registry

open Matching

/-- The text of a profile and one bundle with the deltas in the order of the list. -/
def textOf (profile bundle : Text) (deltas : List Delta) : Text :=
  "use:" ++ profile ++ "\nuse:" ++ bundle ++ (deltas.map Delta.token).flatMap (unit ' ' :: ·)

/-- The agreement of a result with itself and with its request. -/
structure Consistent (r : Registry) (q : Request) (c : Compilation) : Prop where
  confidence : c.confidence.value = min 1 (c.matched.adjustedScore / 7 : ℚ)
  confidence_mem : 0 ≤ c.confidence.value ∧ c.confidence.value ≤ 1
  /-- The top score is the greatest score of a bundle, and the selected bundle has it. -/
  top : (∀ b ∈ r.bundles, points q.text b ≤ c.matched.topScore) ∧
    ∀ b, c.matched.bundle = some b → b ∈ r.bundles ∧ points q.text b = c.matched.topScore
  render_iff_adjusted : c.state = .render ↔ c.matched.bundle ≠ none ∧ 5 ≤ c.matched.adjustedScore
  /-- A top score of five is enough for a bundle without a rival, of six for every bundle. -/
  render_iff_top : c.state = .render ↔ 5 ≤ c.matched.topScore ∧
    ∀ b, c.matched.bundle = some b → Rivalled r q.text b → 6 ≤ c.matched.topScore
  render_iff_confidence : c.state = .render ↔ 13 / 20 ≤ c.confidence.value
  clarification_iff : c.clarification = none ↔ c.state = .render
  dsl_iff : c.dsl = [] ↔ c.state = .clarify
  /-- What is rendered is the text of the audience's profile and the selected bundle. -/
  dsl : c.state = .render → ∃ b deltas, c.matched.bundle = some b ∧
    deltas.Perm q.deltasOrDefault ∧ deltas.Pairwise Delta.Before ∧
    c.dsl = textOf (r.profileFor q.audienceOrDefault).id b.id deltas
  explanation_iff : c.explanation ≠ none ↔
    q.returnModeOrDefault = .dslPlusExplanation ∧ c.state = .render
  applied : c.appliedMode = .bundleOnly
  blank : (∀ u ∈ q.text, Text.isBlank u = true) →
    c.matched.bundle = none ∧ c.confidence.value = 0 ∧ c.state = .clarify

theorem applied_eq (m : Mode) : m.applied = .bundleOnly := by cases m <;> rfl

theorem canonicalLines_eq (profile bundle : Text) (deltas : List Delta) :
    Text.join [unit '\n'] [Directive.canonicalLine [] profile, Directive.canonicalLine deltas bundle]
      = textOf profile bundle deltas := by
  have newline : Text.ofString "\nuse:" = unit '\n' :: Directive.lead := by decide
  have lead : Text.ofString "use:" = Directive.lead := rfl
  simp [Text.join, Directive.canonicalLine, textOf, newline, lead]

variable {r : Registry} {q : Request} {c : Compilation}

/-- What every result takes from the match, rendered or not. -/
theorem Answered.common (h : Answered r q c) :
    c.matched = run r q.text ∧ c.confidence = .ofScore c.matched.adjustedScore ∧
      c.appliedMode = .bundleOnly := by
  cases h with
  | clarified => exact ⟨rfl, rfl, applied_eq _⟩
  | rendered => exact ⟨rfl, rfl, applied_eq _⟩

/-- A result is rendered exactly if a bundle is selected with an adjusted score of five. -/
theorem Answered.state_iff (h : Answered r q c) :
    c.state = .render ↔ c.matched.bundle ≠ none ∧ 5 ≤ c.matched.adjustedScore := by
  cases h with
  | clarified undecided =>
    refine iff_of_false nofun fun ⟨chosen, high⟩ => ?_
    obtain ⟨b, selected⟩ := Option.ne_none_iff_exists'.1 chosen
    have decided : renderedBundle? (run r q.text) = some b :=
      renderedBundle?_eq_some_iff.2 ⟨high, selected⟩
    exact nomatch decided.symm.trans undecided
  | rendered decided written =>
    obtain ⟨high, selected⟩ := renderedBundle?_eq_some_iff.1 decided
    exact iff_of_true rfl ⟨Option.ne_none_iff_exists'.2 ⟨_, selected⟩, high⟩

theorem textOf_ne_nil (profile bundle : Text) (deltas : List Delta) :
    textOf profile bundle deltas ≠ [] := by
  have lead : Text.ofString "use:" = unit 'u' :: Text.ofString "se:" := rfl
  simp [textOf, lead]

/-- A rendered text is that of the selected bundle with the deltas in writing order. -/
theorem Answered.dsl_eq (h : Answered r q c) (state : c.state = .render) :
    ∃ b, c.matched.bundle = some b ∧
      c.dsl = textOf (r.profileFor q.audienceOrDefault).id b.id (Delta.sorted q.deltasOrDefault) := by
  cases h with
  | clarified => cases state
  | @rendered b dsl decided written =>
    have selected := (renderedBundle?_eq_some_iff.1 decided).2
    have lines := (Program.render_eq_ok_iff.1 (canonicalize_eq_ok_iff.1 written).2).2
    exact ⟨b, selected, lines.trans (canonicalLines_eq _ _ _)⟩

theorem Answered.dsl_iff (h : Answered r q c) : c.dsl = [] ↔ c.state = .clarify := by
  have empty : c.state = .clarify → c.dsl = [] := by
    cases h with
    | clarified => exact fun _ => rfl
    | rendered => nofun
  refine ⟨fun none => ?_, empty⟩
  cases state : c.state with
  | clarify => rfl
  | render =>
    obtain ⟨b, -, text⟩ := h.dsl_eq state
    exact absurd (text.symm.trans none) (textOf_ne_nil _ _ _)

theorem Answered.clarification_iff (h : Answered r q c) :
    c.clarification = none ↔ c.state = .render := by
  cases h with
  | clarified => exact iff_of_false nofun nofun
  | rendered => exact iff_of_true rfl rfl

theorem Answered.explanation_iff (h : Answered r q c) : c.explanation ≠ none ↔
    q.returnModeOrDefault = .dslPlusExplanation ∧ c.state = .render := by
  cases h with
  | clarified => exact iff_of_false (fun h => h rfl) nofun
  | rendered => simp [Registry.rendered]

/-- The adjusted score decides alone: a high one comes with a bundle. -/
theorem Answered.score_iff (h : Answered r q c) :
    c.state = .render ↔ 5 ≤ c.matched.adjustedScore := by
  rw [h.state_iff, h.common.1]
  exact ⟨And.right, fun high => ⟨run_bundle_ne_none (Nat.lt_of_lt_of_le (by decide) high), high⟩⟩

/-- A blank text is answered with the question, without a bundle and without confidence. -/
theorem Answered.of_blank (h : Answered r q c) (blank : ∀ u ∈ q.text, Text.isBlank u = true) :
    c.matched.bundle = none ∧ c.confidence.value = 0 ∧ c.state = .clarify := by
  have nothing := run_of_zero (r := r) fun b _ => points_of_blank blank b
  obtain ⟨matched, confidence, -⟩ := h.common
  have none : c.matched.bundle = none := by rw [matched, nothing]
  refine ⟨none, ?_, ?_⟩
  · rw [confidence, matched, nothing, Confidence.value_ofScore]
    norm_num
  · cases state : c.state with
    | clarify => rfl
    | render => exact absurd none (h.state_iff.1 state).1

/-- Every result from the registry of an accepted document is consistent. -/
theorem compile_consistent {document : Json} (accepted : ofDocument document = .ok r)
    (compiled : r.compile q = .ok c) : Consistent r q c := by
  have answered := compile_eq_ok_iff.1 compiled
  have distinct := ofDocument_nodup accepted
  have scored := answered.score_iff
  obtain ⟨matched, confidence, applied⟩ := answered.common
  refine
    { confidence := by rw [confidence, Confidence.value_ofScore]
      confidence_mem := ⟨Confidence.value_nonneg _, Confidence.value_le_one _⟩
      top := ?_
      render_iff_adjusted := answered.state_iff
      render_iff_top := ?_
      render_iff_confidence := ?_
      clarification_iff := answered.clarification_iff
      dsl_iff := answered.dsl_iff
      dsl := ?_
      explanation_iff := answered.explanation_iff
      applied := applied
      blank := answered.of_blank }
  · rw [matched]
    exact ⟨points_le_topScore, fun b selected => run_selected distinct selected⟩
  · rw [scored, matched]
    exact le_run_adjustedScore_iff distinct (by decide)
  · rw [scored, ← Confidence.meets_iff_value, confidence, Confidence.meets_ofScore_iff]
  · intro rendered
    obtain ⟨b, selected, text⟩ := answered.dsl_eq rendered
    exact ⟨b, _, selected, Delta.sorted_perm _, Delta.sorted_pairwise _, text⟩

theorem compile_consistent_single :
    ∃ c, ofDocument (singleDocument "code.review.v1") = .ok (single "code.review.v1") ∧
      (single "code.review.v1").compile singleRequest = .ok c ∧ c.state = .render ∧
      Consistent (single "code.review.v1") singleRequest c := by
  obtain ⟨c, compiled, state, -⟩ := compile_single "code.review.v1"
  have accepted : ofDocument (singleDocument "code.review.v1") = .ok (single "code.review.v1") := rfl
  exact ⟨c, accepted, compiled, state, compile_consistent accepted compiled⟩

end RequestCompiler.Registry
