import RequestCompiler.CommandLine.Request
import RequestCompiler.Proofs.Compile.Answer

/-!
# Requests that cannot be compiled

A compilation fails for one reason: its match renders a bundle and a delta of the request cannot be
written. `compile_eq_error_iff` gives the violation, which is that of the first such delta in writing
order. A delta that was read from an option can always be written, so requests from the command line
never fail (`compile_fails_iff`).
-/

namespace RequestCompiler

namespace Delta

/-- The violation is that of the first delta, in writing order, that cannot be written. -/
def FirstUnwritable (ds : List Delta) (e : InvariantViolation) : Prop :=
  ∃ before d after, sorted ds = before ++ d :: after ∧ (∀ x ∈ before, x.isRenderable = true) ∧
    d.Unwritable e

/-- A delta cannot be written if its key is no name, or its value is empty or holds a blank. -/
theorem not_isRenderable_iff {d : Delta} : ¬d.isRenderable = true ↔
    isName d.key = false ∨ d.value = [] ∨ ∃ u ∈ d.value, Text.isBlank u = true := by
  rw [isRenderable_iff, not_and_or, Bool.not_eq_true, isSolid_iff, not_and_or]
  simp

end Delta

namespace Program

variable {deltas : List Delta} {e : InvariantViolation}

/-- Rendering fails exactly with the violation of the first delta that cannot be written. -/
theorem render_eq_error_iff {profile : Text} {bundles : List Text} :
    render profile bundles deltas = .error e ↔ Delta.FirstUnwritable deltas e := by
  have written : ∀ d : Delta, (∃ t, d.format = .ok t) ↔ d.isRenderable = true := fun d => by
    simp [Delta.format_eq_ok_iff]
  rw [render, map_eq_error_iff, suffix, map_eq_error_iff, mapM_eq_error_iff]
  simp only [written, Delta.format_eq_error_iff]
  rfl

/-- There is a first delta that cannot be written if there is one at all. -/
theorem exists_firstUnwritable_iff :
    (∃ e, Delta.FirstUnwritable deltas e) ↔ ∃ d ∈ deltas, ¬d.isRenderable = true := by
  have fails : ∀ e, Delta.FirstUnwritable deltas e ↔ render [] [] deltas = .error e := fun _ =>
    render_eq_error_iff.symm
  have answers : (∃ dsl, render [] [] deltas = .ok dsl) ↔ ∀ d ∈ deltas, d.isRenderable = true := by
    simp [render_eq_ok_iff]
  have refused : (∃ d ∈ deltas, ¬d.isRenderable = true) ↔ ¬∃ dsl, render [] [] deltas = .ok dsl := by
    simp [answers]
  rw [refused]
  simp only [fails]
  cases render [] [] deltas <;> simp

end Program

namespace CommandLine

/-- The deltas that are read from texts can be written. -/
theorem isRenderable_of_mem_readDeltas {ts : List Text} {d : Delta} (member : d ∈ (readDeltas ts).2) :
    d.isRenderable = true := by
  induction ts with
  | nil => cases member
  | cons t ts ih =>
    rw [readDeltas] at member
    cases read : Delta.parse t with
    | error e =>
      simp only [read] at member
      exact ih member
    | ok d' =>
      simp only [read] at member
      rcases List.mem_cons.1 member with rfl | later
      · exact (Delta.parse_eq_ok_iff.1 read).1
      · exact ih later

/-- So can those of a request that is stated in options. -/
theorem isRenderable_of_request {words : List Text} {o : RequestOptions} {q : Request}
    (stated : request words o = .ok q) : ∀ d ∈ q.deltasOrDefault, d.isRenderable = true := by
  simp only [request] at stated
  split at stated
  · obtain rfl := Except.ok.inj stated
    exact fun d member => isRenderable_of_mem_readDeltas member
  · cases stated

end CommandLine

namespace Registry

variable {r : Registry} {q : Request}

/-- A selected bundle is registered. -/
theorem hasBundle_of_selected {t : Text} {b : Bundle} (selected : (Matching.run r t).bundle = some b) :
    r.hasBundle b.id = true := by
  rw [Matching.run, Matching.ofScores] at selected
  split at selected
  · cases selected
  · exact List.any_eq_true.2 ⟨b, List.mem_of_find?_eq_some selected, beq_self_eq_true _⟩

/-- The match of the request selects a bundle, with a score that is high enough to render it. -/
def Decided (r : Registry) (q : Request) : Prop :=
  (∃ b, (Matching.run r q.text).bundle = some b) ∧ 5 ≤ (Matching.run r q.text).adjustedScore

theorem decided_iff : Decided r q ↔ ∃ b, renderedBundle? (Matching.run r q.text) = some b := by
  simp [renderedBundle?_eq_some_iff, Decided, and_comm]

theorem compile_of_undecided (undecided : ¬Decided r q) :
    r.compile q = .ok (clarified q (Matching.run r q.text)) := by
  rw [decided_iff, ← Option.isSome_iff_exists, Bool.not_eq_true, Option.isSome_eq_false_iff,
    Option.isNone_iff_eq_none] at undecided
  exact compile_eq_ok_iff.2 (.clarified undecided)

theorem compile_of_decided {b : Bundle} (decided : renderedBundle? (Matching.run r q.text) = some b) :
    r.compile q = (Program.render (r.profileFor q.audienceOrDefault).id [b.id] q.deltasOrDefault).map
      (rendered q (Matching.run r q.text)) := by
  have registered : [b.id].find? (fun id => !r.hasBundle id) = none := by
    simp [hasBundle_of_selected (renderedBundle?_eq_some_iff.1 decided).2]
  simp only [compile, decided, canonicalize, registered]

/-- A compilation fails exactly if it is decided to render and a delta cannot be written, with the
violation of the first one. -/
theorem compile_eq_error_iff {e : InvariantViolation} :
    r.compile q = .error e ↔ Decided r q ∧ Delta.FirstUnwritable q.deltasOrDefault e := by
  by_cases decided : Decided r q
  · obtain ⟨b, some⟩ := decided_iff.1 decided
    rw [compile_of_decided some, map_eq_error_iff, Program.render_eq_error_iff]
    exact (and_iff_right decided).symm
  · rw [compile_of_undecided decided]
    exact iff_of_false nofun fun h => decided h.1

/-- A compilation fails exactly if its match renders a bundle and a delta of the request cannot be
written, and then with the violation of the first such delta. Requests that are stated in options are
always answered. -/
theorem compile_fails_iff (r : Registry) :
    (∀ q, (∃ e, r.compile q = .error e) ↔ Decided r q ∧ ∃ d ∈ q.deltasOrDefault,
        isName d.key = false ∨ d.value = [] ∨ ∃ u ∈ d.value, Text.isBlank u = true) ∧
      (∀ q e, r.compile q = .error e → Delta.FirstUnwritable q.deltasOrDefault e) ∧
      ∀ words o q, CommandLine.request words o = .ok q → ∃ c, r.compile q = .ok c := by
  have fails : ∀ q, (∃ e, r.compile q = .error e) ↔
      Decided r q ∧ ∃ d ∈ q.deltasOrDefault, ¬d.isRenderable = true := by
    intro q
    simp only [compile_eq_error_iff, exists_and_left, Program.exists_firstUnwritable_iff]
  refine ⟨fun q => ?_, fun q e failed => (compile_eq_error_iff.1 failed).2, fun words o q stated => ?_⟩
  · simp only [fails, Delta.not_isRenderable_iff]
  · cases compiled : r.compile q with
    | ok c => exact ⟨c, rfl⟩
    | error e =>
      obtain ⟨-, d, member, unwritable⟩ := (fails q).1 ⟨e, compiled⟩
      exact absurd (CommandLine.isRenderable_of_request stated d member) unwritable

/-- A key with a blank in it fails, and the delta of an option does not. -/
theorem compile_fails_iff_single :
    (∃ e, (single "code.review.v1").compile
        { singleRequest with deltas := some [⟨"two words", "x"⟩] } = .error e) ∧
      ∃ q c, CommandLine.request ["Check my code,", "review it"]
          ⟨some "dev", none, none, ["+depth=full"]⟩ = .ok q ∧
        (single "code.review.v1").compile q = .ok c := by
  obtain ⟨fails, -, answers⟩ := compile_fails_iff (single "code.review.v1")
  have stated : CommandLine.request ["Check my code,", "review it"]
      ⟨some "dev", none, none, ["+depth=full"]⟩ = .ok _ := rfl
  obtain ⟨c, compiled⟩ := answers _ _ _ stated
  have decided := decided_iff.2 ⟨_, renderedBundle?_single "code.review.v1"⟩
  exact ⟨(fails _).2 ⟨decided, _, List.mem_cons_self, .inl rfl⟩, _, c, stated, compiled⟩

end Registry

end RequestCompiler
