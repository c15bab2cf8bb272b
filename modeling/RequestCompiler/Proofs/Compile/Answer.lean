import RequestCompiler.Compile
import RequestCompiler.Proofs.Confidence
import RequestCompiler.Proofs.Except
import RequestCompiler.Proofs.Matching.Run
import RequestCompiler.Proofs.Program.RoundTrip

/-!
# How a request is answered

`Answered r q c` lists the two ways in which a compilation ends with a result, and
`compile_eq_ok_iff` says that there are no others. `canonicalize_eq_ok_iff` gives the text that is
rendered. `compile_single` follows a request through a registry of one bundle, whatever the
bundle's id.
-/

namespace RequestCompiler.Registry

/-- A match renders its bundle from a score of five on. -/
theorem renderedBundle?_eq_some_iff {m : Match} {b : Bundle} :
    renderedBundle? m = some b ↔ 5 ≤ m.adjustedScore ∧ m.bundle = some b := by
  rw [renderedBundle?, Option.filter_eq_some_iff, Confidence.meets_ofScore_iff, and_comm]

/-- The text is written for registered bundles and renderable deltas, and for no others. -/
theorem canonicalize_eq_ok_iff {r : Registry} {a : Audience} {ids : List Text} {deltas : List Delta}
    {dsl : Text} :
    r.canonicalize a ids deltas = .ok dsl ↔
      (∀ id ∈ ids, r.hasBundle id = true) ∧
        Program.render (r.profileFor a).id ids deltas = .ok dsl := by
  unfold canonicalize
  cases found : ids.find? fun id => !r.hasBundle id with
  | none =>
    have registered : ∀ id ∈ ids, r.hasBundle id = true := by
      simpa using List.find?_eq_none.1 found
    exact ⟨fun h => ⟨registered, h⟩, fun h => h.2⟩
  | some id =>
    have unknown := List.find?_some found
    refine ⟨nofun, fun h => ?_⟩
    simp [h.1 id (List.mem_of_find?_eq_some found)] at unknown

/-- The results of a request: a question unless the match renders a bundle, and otherwise the
text of the audience's profile and that bundle, if it can be written. -/
inductive Answered (r : Registry) (q : Request) : Compilation → Prop
  | clarified (undecided : renderedBundle? (Matching.run r q.text) = none) :
      Answered r q (clarified q (Matching.run r q.text))
  | rendered {b : Bundle} {dsl : Text} (decided : renderedBundle? (Matching.run r q.text) = some b)
      (written : r.canonicalize q.audienceOrDefault [b.id] q.deltasOrDefault = .ok dsl) :
      Answered r q (rendered q (Matching.run r q.text) dsl)

theorem compile_eq_ok_iff {r : Registry} {q : Request} {c : Compilation} :
    r.compile q = .ok c ↔ Answered r q c := by
  constructor
  · intro compiled
    unfold compile at compiled
    cases decision : renderedBundle? (Matching.run r q.text) with
    | none =>
      simp only [decision] at compiled
      obtain rfl := Except.ok.inj compiled
      exact .clarified decision
    | some b =>
      simp only [decision, map_eq_ok_iff] at compiled
      obtain ⟨dsl, written, rfl⟩ := compiled
      exact .rendered decision written
  · intro answered
    unfold compile
    cases answered with
    | clarified undecided => simp only [undecided]
    | rendered decided written =>
      simp only [decided, written]
      rfl

section Single

/-- A bundle that is found by three keywords. -/
def singleBundle (id : Text) : Bundle := ⟨id, id, [], [], ["check", "code", "review"], .arr []⟩

/-- The registry of that bundle and the three profiles. -/
def single (id : Text) : Registry :=
  ⟨⟨.dev, Audience.dev.profileId, .arr []⟩, ⟨.audit, Audience.audit.profileId, .arr []⟩,
    ⟨.exec, Audience.exec.profileId, .arr []⟩, [singleBundle id]⟩

/-- The document that declares it. -/
def singleDocument (id : Text) : Json :=
  .object [("profiles", .arr (Audience.all.map fun a => .object [("id", .str a.profileId)])),
    ("bundles", .arr [.object [("id", .str id),
      ("match", .object [("keywords_any", .texts ["check", "code", "review"])])]])]

/-- A request that holds the keywords, for a delta. -/
def singleRequest : Request :=
  ⟨"Check my code, review it", none, none, none, some [⟨"depth", "full"⟩]⟩

theorem points_single (id : Text) : Matching.points singleRequest.text (singleBundle id) = 6 := rfl

theorem leads_single (id : Text) :
    Matching.Leads (Matching.points singleRequest.text) (single id).bundles [] (singleBundle id) [] where
  split := rfl
  positive := by
    rw [points_single]
    decide
  above := nofun
  atLeast := nofun

/-- The match of the request renders the bundle. -/
theorem renderedBundle?_single (id : Text) :
    renderedBundle? (Matching.run (single id) singleRequest.text) = some (singleBundle id) := by
  have distinct : ((single id).bundles.map Bundle.id).Nodup := List.pairwise_singleton _ _
  have high : 5 ≤ (Matching.run (single id) singleRequest.text).adjustedScore := by
    rw [Matching.run_adjustedScore (leads_single id), points_single]
    split <;> decide
  exact renderedBundle?_eq_some_iff.2 ⟨high, Matching.run_bundle (leads_single id) distinct⟩

/-- The request is answered with the bundle. -/
theorem compile_single (id : Text) :
    ∃ c, (single id).compile singleRequest = .ok c ∧ c.state = .render ∧
      c.matched.bundle = some (singleBundle id) := by
  have decided := renderedBundle?_single id
  have registered : ∀ i ∈ [id], (single id).hasBundle i = true := by
    simp [hasBundle, single, singleBundle]
  have renderable : ∀ d ∈ singleRequest.deltasOrDefault, d.isRenderable = true := by decide
  have written : (single id).canonicalize .dev [id] singleRequest.deltasOrDefault = .ok _ :=
    canonicalize_eq_ok_iff.2 ⟨registered, Program.render_eq_ok_iff.2 ⟨renderable, rfl⟩⟩
  exact ⟨_, compile_eq_ok_iff.2 (.rendered decided written), rfl,
    (renderedBundle?_eq_some_iff.1 decided).2⟩

end Single

end RequestCompiler.Registry
