import RequestCompiler.Proofs.Compile.Violation
import RequestCompiler.Proofs.Matching.Contenders
import RequestCompiler.Proofs.Matching.Ranking

/-!
# Registries that are extended or reordered

Bundles without points on a request take no part in it: registries with the same contenders decide it
alike (`compile_contest`). Only what several bundles with the top score leave open, which of them is
selected, is told by the order of registration.
-/

namespace RequestCompiler.Registry

open Matching

variable {r r' : Registry} {q : Request}

/-- The adjusted score decides alone, since only a selected bundle has points. -/
theorem decided_iff_score : Decided r q ↔ 5 ≤ (run r q.text).adjustedScore := by
  refine ⟨And.right, fun high => ⟨?_, high⟩⟩
  exact Option.ne_none_iff_exists'.1 (run_bundle_ne_none (Nat.lt_of_lt_of_le (by decide) high))

section Figures

variable (figures : Figures (run r q.text) (run r' q.text))
include figures

theorem decided_congr : Decided r q ↔ Decided r' q := by
  rw [decided_iff_score, decided_iff_score, figures.adjustedScore]

/-- What does not depend on the text is the same in both results; where rendering fails, it fails in
both with the violation of the same delta. -/
theorem compile_map_eq {α : Type} (part : Compilation → α)
    (asked : part (clarified q (run r q.text)) = part (clarified q (run r' q.text)))
    (answered : ∀ dsl dsl', part (rendered q (run r q.text) dsl) = part (rendered q (run r' q.text) dsl')) :
    (r.compile q).map part = (r'.compile q).map part := by
  by_cases decided : Decided r q
  · obtain ⟨b, some⟩ := decided_iff.1 decided
    obtain ⟨b', some'⟩ := decided_iff.1 ((decided_congr figures).1 decided)
    rw [compile_of_decided some, compile_of_decided some', Program.render, Program.render]
    cases Program.suffix q.deltasOrDefault with
    | error e => rfl
    | ok tail => exact congrArg Except.ok (answered _ _)
  · have undecided := mt (decided_congr figures).2 decided
    rw [compile_of_undecided decided, compile_of_undecided undecided]
    exact congrArg Except.ok asked

end Figures

/-- The registries answer the request with the same figures, or fail alike. -/
structure SameVerdict (r r' : Registry) (q : Request) : Prop where
  figures : Figures (run r q.text) (run r' q.text)
  state : (r.compile q).map Compilation.state = (r'.compile q).map Compilation.state
  confidence : (r.compile q).map Compilation.confidence = (r'.compile q).map Compilation.confidence

/-- The registries select the same bundle for the request and answer it with the same text, or fail
alike. -/
structure SameChoice (r r' : Registry) (q : Request) : Prop where
  bundle : (run r q.text).bundle = (run r' q.text).bundle
  dsl : (r.compile q).map Compilation.dsl = (r'.compile q).map Compilation.dsl

theorem SameVerdict.of_figures (figures : Figures (run r q.text) (run r' q.text)) :
    SameVerdict r r' q where
  figures := figures
  state := compile_map_eq figures _ rfl fun _ _ => rfl
  confidence := by
    have same := congrArg Confidence.ofScore figures.adjustedScore
    exact compile_map_eq figures _ same fun _ _ => same

/-- The selected bundle determines the text, if an audience has the same profile id in both. -/
theorem SameChoice.of_bundle (figures : Figures (run r q.text) (run r' q.text))
    (profile : (r.profileFor q.audienceOrDefault).id = (r'.profileFor q.audienceOrDefault).id)
    (bundle : (run r q.text).bundle = (run r' q.text).bundle) : SameChoice r r' q where
  bundle := bundle
  dsl := by
    by_cases decided : Decided r q
    · obtain ⟨b, some⟩ := decided_iff.1 decided
      have some' : renderedBundle? (run r' q.text) = .some b := by
        rw [renderedBundle?_eq_some_iff] at some ⊢
        rwa [← figures.adjustedScore, ← bundle]
      rw [compile_of_decided some, compile_of_decided some', profile]
      cases Program.render _ [b.id] q.deltasOrDefault <;> rfl
    · have undecided := mt (decided_congr figures).2 decided
      rw [compile_of_undecided decided, compile_of_undecided undecided]
      rfl

/-- Registries whose bundles with points on the request are the same, in any order and among any others,
answer it with the same figures. They select the same bundle if only one has the top score, or if the
order of those with points is the same. -/
theorem compile_contest {document document' : Json} (accepted : ofDocument document = .ok r)
    (accepted' : ofDocument document' = .ok r')
    (same : (contenders r q.text).Perm (contenders r' q.text)) :
    SameVerdict r r' q ∧ (SoleTop r q.text → SameChoice r r' q) ∧
      (contenders r q.text = contenders r' q.text → SameChoice r r' q) := by
  have figures := Figures.of_perm same
  have distinct := ofDocument_nodup accepted
  have distinct' := ofDocument_nodup accepted'
  -- The id of a profile is that of its audience, so accepted documents bind them alike.
  have profile : (r.profileFor q.audienceOrDefault).id = (r'.profileFor q.audienceOrDefault).id := by
    rw [Profile.id, Profile.id, audience_profileFor accepted, audience_profileFor accepted']
  refine ⟨.of_figures figures, fun sole => ?_, fun ordered => ?_⟩
  · exact .of_bundle figures profile (run_bundle_of_soleTop distinct distinct' same sole)
  · exact .of_bundle figures profile (run_bundle_of_contenders_eq distinct distinct' ordered)

/-- One bundle has all words of the request, here and among others in another order. -/
def reviewBundles : List (Text × List Text) :=
  [("review", ["check", "code", "review"]), ("audit", ["code"])]

def moreBundles : List (Text × List Text) :=
  [("audit", ["code"]), ("notes", ["draft"]), ("review", ["check", "code", "review"])]

theorem soleTop_review : SoleTop (worded reviewBundles) singleRequest.text := by
  have top : (run (worded reviewBundles) singleRequest.text).topScore = 6 := rfl
  intro b member b' member'
  rw [top]
  simp only [worded, reviewBundles, List.map_cons, List.map_nil, List.mem_cons, List.not_mem_nil,
    or_false] at member member'
  rcases member with rfl | rfl <;> rcases member' with rfl | rfl
  · exact fun _ _ => rfl
  · exact fun _ low => absurd low (by decide +kernel)
  · exact fun low _ => absurd low (by decide +kernel)
  · exact fun _ _ => rfl

theorem decided_review : Decided (worded reviewBundles) singleRequest := by
  have leads : Leads (points singleRequest.text) (worded reviewBundles).bundles []
      ⟨"review", "review", [], [], ["check", "code", "review"], .arr []⟩
      [⟨"audit", "audit", [], [], ["code"], .arr []⟩] :=
    ⟨rfl, by decide +kernel, nofun, by decide +kernel⟩
  have six : points singleRequest.text
      ⟨"review", "review", [], [], ["check", "code", "review"], .arr []⟩ = 6 := rfl
  rw [decided_iff_score, run_adjustedScore leads, six]
  split <;> decide

theorem compile_contest_reordered :
    Decided (worded reviewBundles) singleRequest ∧
      SameVerdict (worded reviewBundles) (worded moreBundles) singleRequest ∧
      SameChoice (worded reviewBundles) (worded moreBundles) singleRequest ∧
      SameChoice (worded tiedBundles) (worded tiedBundles.tail) (.ofText "Check the code") := by
  have review : ofDocument (wordedDocument reviewBundles) = .ok (worded reviewBundles) := rfl
  have more : ofDocument (wordedDocument moreBundles) = .ok (worded moreBundles) := rfl
  have reordered : (contenders (worded reviewBundles) singleRequest.text).Perm
      (contenders (worded moreBundles) singleRequest.text) := .swap _ _ []
  have tied : ofDocument (wordedDocument tiedBundles) = .ok (worded tiedBundles) := rfl
  have alone : ofDocument (wordedDocument tiedBundles.tail) = .ok (worded tiedBundles.tail) := rfl
  have same : contenders (worded tiedBundles) (Request.ofText "Check the code").text =
      contenders (worded tiedBundles.tail) (Request.ofText "Check the code").text := rfl
  obtain ⟨verdict, choice, -⟩ := compile_contest review more reordered
  obtain ⟨-, -, choice'⟩ := compile_contest tied alone (.of_eq same)
  exact ⟨decided_review, verdict, choice soleTop_review, choice' same⟩

end RequestCompiler.Registry
