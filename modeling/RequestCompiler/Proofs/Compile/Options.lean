import RequestCompiler.Proofs.Compile.Consistency
import RequestCompiler.Proofs.Compile.Violation

/-!
# What the options of a request decide

The text of a request alone decides how it is answered. `answer` is the result of a request whose deltas
can be written (`compile_eq_answer`), and `OptionsApart` compares the results of two requests with the same
text: the decision is the same, and an option that alone was changed shows in the parts that belong to it
and nowhere else. Of a rendered text the audience has the first line and the deltas have what follows the
bundle's id.
-/

namespace RequestCompiler.Registry

open Matching

/-- Every delta of the request can be written. -/
def Writable (q : Request) : Prop := ∀ d ∈ q.deltasOrDefault, d.isRenderable = true

/-- The first line of what is rendered for an audience. -/
def profileLine (r : Registry) (a : Audience) : Text := "use:" ++ (r.profileFor a).id

/-- The text that a request is rendered as for a bundle. -/
def writtenText (r : Registry) (q : Request) (b : Bundle) : Text :=
  textOf (r.profileFor q.audienceOrDefault).id b.id (Delta.sorted q.deltasOrDefault)

/-- The result for a request whose deltas can be written, with each part told from what it is made of. -/
def answer (r : Registry) (q : Request) : Compilation where
  state := if (renderedBundle? (run r q.text)).isSome then .render else .clarify
  dsl := (renderedBundle? (run r q.text)).elim [] (writtenText r q)
  confidence := .ofScore (run r q.text).adjustedScore
  clarification := if (renderedBundle? (run r q.text)).isSome then none else some clarificationQuestion
  explanation :=
    if (renderedBundle? (run r q.text)).isSome ∧ q.returnModeOrDefault = .dslPlusExplanation then
      some (run r q.text).explanation
    else none
  matched := run r q.text
  audience := q.audienceOrDefault
  mode := q.modeOrDefault
  appliedMode := .bundleOnly
  returnMode := q.returnModeOrDefault

/-- Both results come from the same decision. -/
structure SameDecision (c c' : Compilation) : Prop where
  matched : c.matched = c'.matched
  state : c.state = c'.state
  confidence : c.confidence = c'.confidence
  clarification : c.clarification = c'.clarification
  appliedMode : c.appliedMode = c'.appliedMode

/-- The texts differ in their first lines at most, which are those of the audiences. -/
structure FirstLineApart (r : Registry) (a a' : Audience) (t t' : Text) : Prop where
  whole : ∀ audience, unit '\n' ∉ r.profileLine audience
  lines : ∃ rest, t = r.profileLine a ++ unit '\n' :: rest ∧ t' = r.profileLine a' ++ unit '\n' :: rest

/-- The texts differ at most in the delta tokens behind the id of the bundle, which are those of the deltas
in writing order. -/
structure TokensApart (b : Bundle) (ds ds' : List Delta) (t t' : Text) : Prop where
  tokens : ∃ profile es es', es.Perm ds ∧ es.Pairwise Delta.Before ∧ es'.Perm ds' ∧
    es'.Pairwise Delta.Before ∧ t = textOf profile b.id es ∧ t' = textOf profile b.id es'

/-- The results of two requests with the same text. The decision is the same whatever the options are, and
an option that alone differs has no part in the result but its own. -/
structure OptionsApart (r : Registry) (q q' : Request) (c c' : Compilation) : Prop where
  decision : SameDecision c c'
  asked : c'.audience = q'.audienceOrDefault ∧ c'.mode = q'.modeOrDefault ∧
    c'.returnMode = q'.returnModeOrDefault
  mode : q' = { q with mode := q'.mode } → c' = { c with mode := c'.mode }
  returnMode : q' = { q with returnMode := q'.returnMode } →
    c' = { c with returnMode := c'.returnMode, explanation := c'.explanation }
  audience : q' = { q with audience := q'.audience } →
    c' = { c with audience := c'.audience, dsl := c'.dsl } ∧ (c.state = .clarify → c'.dsl = c.dsl) ∧
      (c.state = .render → FirstLineApart r q.audienceOrDefault q'.audienceOrDefault c.dsl c'.dsl)
  deltas : q' = { q with deltas := q'.deltas } →
    c' = { c with dsl := c'.dsl } ∧ (c.state = .clarify → c'.dsl = c.dsl) ∧
      (c.state = .render → ∃ b, c.matched.bundle = some b ∧
        TokensApart b q.deltasOrDefault q'.deltasOrDefault c.dsl c'.dsl)

variable {r : Registry} {q q' : Request} {b : Bundle}

theorem answer_of_undecided (undecided : renderedBundle? (run r q.text) = none) :
    clarified q (run r q.text) = answer r q := by
  simp [answer, clarified, undecided, applied_eq]

theorem answer_of_decided (decided : renderedBundle? (run r q.text) = some b) :
    rendered q (run r q.text) (writtenText r q b) = answer r q := by
  simp [answer, rendered, decided, applied_eq]

theorem compile_eq_answer (writable : Writable q) : r.compile q = .ok (answer r q) := by
  rw [compile_eq_ok_iff]
  cases decision : renderedBundle? (run r q.text) with
  | none => exact answer_of_undecided decision ▸ .clarified decision
  | some b =>
    have registered : ∀ id ∈ [b.id], r.hasBundle id = true := by
      simpa using hasBundle_of_selected (renderedBundle?_eq_some_iff.1 decision).2
    have written : r.canonicalize q.audienceOrDefault [b.id] q.deltasOrDefault = .ok (writtenText r q b) :=
      canonicalize_eq_ok_iff.2
        ⟨registered, Program.render_eq_ok_iff.2 ⟨writable, (canonicalLines_eq _ _ _).symm⟩⟩
    exact answer_of_decided decision ▸ .rendered decision written

/-- No profile id holds a line end. -/
theorem not_mem_profileLine (a : Audience) : unit '\n' ∉ r.profileLine a := by
  have each : ∀ a : Audience, unit '\n' ∉ Text.ofString "use:" ++ a.profileId := by
    intro a
    cases a <;> decide
  exact each (r.profileFor a).audience

theorem textOf_eq_line (profile bundle : Text) (ds : List Delta) : textOf profile bundle ds =
    "use:" ++ profile ++ unit '\n' :: ("use:" ++ bundle ++ (ds.map Delta.token).flatMap (unit ' ' :: ·)) := by
  have newline : Text.ofString "\nuse:" = unit '\n' :: Text.ofString "use:" := by decide
  simp [textOf, newline]

theorem answer_undecided (state : (answer r q).state = .clarify) :
    renderedBundle? (run r q.text) = none := by
  simpa [answer] using state

theorem answer_decided (state : (answer r q).state = .render) :
    ∃ b, renderedBundle? (run r q.text) = some b := by
  simpa [answer, Option.isSome_iff_exists] using state

theorem answer_dsl (decided : renderedBundle? (run r q.text) = some b) :
    (answer r q).dsl = writtenText r q b := by
  rw [answer, decided, Option.elim_some]

/-- A question has no text, whatever the options of the request are. -/
theorem answer_dsl_eq (text : q'.text = q.text) (state : (answer r q).state = .clarify) :
    (answer r q').dsl = (answer r q).dsl := by
  rw [answer, answer, text, answer_undecided state, Option.elim_none, Option.elim_none]

theorem optionsApart_answer (text : q'.text = q.text) :
    OptionsApart r q q' (answer r q) (answer r q') where
  decision := by
    constructor <;> simp only [answer, text]
  asked := ⟨rfl, rfl, rfl⟩
  mode same := by
    obtain ⟨m, rfl⟩ : ∃ m, q' = { q with mode := m } := ⟨_, same⟩
    rfl
  returnMode same := by
    obtain ⟨m, rfl⟩ : ∃ m, q' = { q with returnMode := m } := ⟨_, same⟩
    rfl
  audience same := by
    obtain ⟨a, rfl⟩ : ∃ a, q' = { q with audience := a } := ⟨_, same⟩
    refine ⟨rfl, answer_dsl_eq rfl, fun state => ⟨not_mem_profileLine, ?_⟩⟩
    obtain ⟨b, decided⟩ := answer_decided state
    have decided' : renderedBundle? (run r { q with audience := a }.text) = some b := decided
    rw [answer_dsl decided, answer_dsl decided']
    exact ⟨_, textOf_eq_line _ _ _, textOf_eq_line _ _ _⟩
  deltas same := by
    obtain ⟨ds, rfl⟩ : ∃ ds, q' = { q with deltas := ds } := ⟨_, same⟩
    refine ⟨rfl, answer_dsl_eq rfl, fun state => ?_⟩
    obtain ⟨b, decided⟩ := answer_decided state
    have decided' : renderedBundle? (run r { q with deltas := ds }.text) = some b := decided
    refine ⟨b, (renderedBundle?_eq_some_iff.1 decided).2, (r.profileFor q.audienceOrDefault).id, _, _,
      Delta.sorted_perm _, Delta.sorted_pairwise _, Delta.sorted_perm _, Delta.sorted_pairwise _, ?_, ?_⟩
    · exact answer_dsl decided
    · exact answer_dsl decided'

/-- What is left out of a request is the same as its default. -/
structure Defaulted (r : Registry) (q : Request) : Prop where
  audience : r.compile { q with audience := none } = r.compile { q with audience := some .dev }
  mode : r.compile { q with mode := none } = r.compile { q with mode := some .bundleOnly }
  returnMode :
    r.compile { q with returnMode := none } = r.compile { q with returnMode := some .dslPlusConfidence }
  deltas : r.compile { q with deltas := none } = r.compile { q with deltas := some [] }

/-- Two requests with the same text and deltas that can be written are answered with the same decision, and
an option that alone was changed shows in its own part of the result. An option that is left out is its
default. -/
theorem compile_options_apart (r : Registry) :
    (∀ q q' : Request, q'.text = q.text → Writable q → Writable q' →
      ∃ c c', r.compile q = .ok c ∧ r.compile q' = .ok c' ∧ OptionsApart r q q' c c') ∧
      ∀ q, Defaulted r q := by
  refine ⟨fun q q' text writable writable' => ?_, fun q => ⟨rfl, rfl, rfl, rfl⟩⟩
  exact ⟨_, _, compile_eq_answer writable, compile_eq_answer writable', optionsApart_answer text⟩

/-- A rendered request for another audience, and with all options changed at once. -/
theorem compile_options_apart_single :
    (∃ c c', (single "code.review.v1").compile singleRequest = .ok c ∧ c.state = .render ∧
      (single "code.review.v1").compile { singleRequest with audience := some .audit } = .ok c' ∧
      c' = { c with audience := .audit, dsl := c'.dsl } ∧
      FirstLineApart (single "code.review.v1") .dev .audit c.dsl c'.dsl) ∧
    ∃ c c', (single "code.review.v1").compile singleRequest = .ok c ∧
      (single "code.review.v1").compile ⟨singleRequest.text, some .exec, some .allowInlineFallback,
        some .dslPlusExplanation, some [⟨"note", "+a=b"⟩, ⟨"depth", "full"⟩]⟩ = .ok c' ∧
      SameDecision c c' := by
  obtain ⟨apart, -⟩ := compile_options_apart (single "code.review.v1")
  have writable : Writable singleRequest := by
    unfold Writable
    decide
  obtain ⟨rendered, compiled, state, -⟩ := compile_single "code.review.v1"
  constructor
  · obtain ⟨c, c', first, second, options⟩ :=
      apart singleRequest { singleRequest with audience := some .audit } rfl writable writable
    obtain rfl := Except.ok.inj (compiled.symm.trans first)
    obtain ⟨same, -, lines⟩ := options.audience rfl
    have asked : c'.audience = .audit := options.asked.1
    exact ⟨rendered, c', first, state, second, asked ▸ same, lines state⟩
  · obtain ⟨c, c', first, second, options⟩ := apart singleRequest ⟨singleRequest.text, some .exec,
      some .allowInlineFallback, some .dslPlusExplanation, some [⟨"note", "+a=b"⟩, ⟨"depth", "full"⟩]⟩
      rfl writable (by unfold Writable; decide)
    exact ⟨c, c', first, second, options.decision⟩

end RequestCompiler.Registry
