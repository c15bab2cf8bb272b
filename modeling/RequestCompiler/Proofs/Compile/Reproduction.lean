import RequestCompiler.Compile
import RequestCompiler.Proofs.Registry.Accepted
import RequestCompiler.Proofs.Registry.Identity

/-!
# The hash of a registry identifies its decisions

Matching and compiling read nothing of an expansion, so to replace the expansions of a registry is to
replace the one of the bundle that is selected (`compile_mapExpansions`). All else that they read is
told by the hash: registries with the same hash answer every request alike
(`compile_eq_of_hash_eq`).
-/

namespace RequestCompiler

/-- The match with the expansion of its bundle replaced by an image of it. -/
def Match.mapExpansion (f : Json → Json) (m : Match) : Match :=
  { m with bundle := m.bundle.map (Bundle.mapExpansion f) }

def Compilation.mapExpansion (f : Json → Json) (c : Compilation) : Compilation :=
  { c with matched := c.matched.mapExpansion f }

/-- The result with the canonical text of its bundle's expansion in place of it. -/
def Compilation.outline (c : Compilation) : Compilation := c.mapExpansion Registry.outlined

section Expansions

variable {f : Json → Json} {r : Registry} {m : Match} {q : Request}

theorem Match.explanation_mapExpansion : (m.mapExpansion f).explanation = m.explanation := by
  unfold Match.explanation Match.mapExpansion
  cases m.bundle <;> rfl

namespace Matching

theorem scoreBundles_mapExpansions (text : Text) :
    scoreBundles (r.mapExpansions f) text = scoreBundles r text := by
  rw [scoreBundles, scoreBundles, Registry.mapExpansions, List.map_map]
  rfl

theorem bundle?_mapExpansions (id : Text) :
    (r.mapExpansions f).bundle? id = (r.bundle? id).map (Bundle.mapExpansion f) := by
  rw [Registry.bundle?, Registry.mapExpansions, List.find?_map]
  rfl

/-- The expansions of a registry reach a match with the selected bundle alone. -/
theorem run_mapExpansions (text : Text) :
    run (r.mapExpansions f) text = (run r text).mapExpansion f := by
  rw [run, run, scoreBundles_mapExpansions, ofScores, ofScores]
  cases best? (scoreBundles r text) with
  | none => rfl
  | some best =>
    simp only [bundle?_mapExpansions]
    rfl

end Matching

namespace Registry

theorem renderedBundle?_mapExpansion :
    renderedBundle? (m.mapExpansion f) = (renderedBundle? m).map (Bundle.mapExpansion f) := by
  simp only [renderedBundle?, Match.mapExpansion]
  cases m.bundle with
  | none => rfl
  | some b =>
    simp only [Option.map_some, Option.filter_some]
    split <;> rfl

theorem canonicalize_mapExpansions (a : Audience) (ids : List Text) (deltas : List Delta) :
    (r.mapExpansions f).canonicalize a ids deltas = r.canonicalize a ids deltas := by
  have registered : ∀ id, (r.mapExpansions f).hasBundle id = r.hasBundle id := by
    intro id
    rw [hasBundle, hasBundle, mapExpansions, List.any_map]
    rfl
  have profile : ((r.mapExpansions f).profileFor a).id = (r.profileFor a).id := by
    cases a <;> rfl
  simp only [canonicalize, registered, profile]

theorem rendered_mapExpansion (dsl : Text) :
    rendered q (m.mapExpansion f) dsl = (rendered q m dsl).mapExpansion f := by
  simp only [rendered, Match.explanation_mapExpansion]
  rfl

/-- The expansions of a registry reach a result with the selected bundle alone. -/
theorem compile_mapExpansions :
    (r.mapExpansions f).compile q = (r.compile q).map (Compilation.mapExpansion f) := by
  unfold compile
  simp only [Matching.run_mapExpansions, renderedBundle?_mapExpansion]
  cases renderedBundle? (Matching.run r q.text) with
  | none => rfl
  | some b =>
    have own : (b.mapExpansion f).id = b.id := rfl
    simp only [Option.map_some, canonicalize_mapExpansions, own]
    cases r.canonicalize q.audienceOrDefault [b.id] q.deltasOrDefault with
    | error violation => rfl
    | ok dsl => simp only [Except.map, rendered_mapExpansion]

end Registry

end Expansions

namespace Registry

/-- Registries with the same hash have the same outline, and every request ends with the same error
or with the same result but for the layout of the selected bundle's expansion, unless SHA-256 answers
the same for the two canonical texts. -/
theorem compile_eq_of_hash_eq {r s : Registry}
    (apart : Sha256.digest r.content.canonical.utf8 = Sha256.digest s.content.canonical.utf8 →
      r.content.canonical.utf8 = s.content.canonical.utf8)
    (same : r.hash = s.hash) :
    r.outline = s.outline ∧
      ∀ q, (r.compile q).map Compilation.outline = (s.compile q).map Compilation.outline := by
  have outlines := outline_eq_of_hash_eq apart same
  refine ⟨outlines, fun q => ?_⟩
  calc (r.compile q).map Compilation.outline
    _ = r.outline.compile q := compile_mapExpansions.symm
    _ = s.outline.compile q := by rw [outlines]
    _ = (s.compile q).map Compilation.outline := compile_mapExpansions

/-- The two zeros are written alike, so they are no difference between registries. -/
theorem compile_eq_of_hash_eq_zeros :
    ofDocument (sampleDocument ["check"] (.num (.ofOrder true 0))) =
        .ok (sample ["check"] (.num (.ofOrder true 0))) ∧
      ofDocument (sampleDocument ["check"] (.num (.ofOrder false 0))) =
        .ok (sample ["check"] (.num (.ofOrder false 0))) ∧
      (sample ["check"] (.num (.ofOrder true 0))).hash =
        (sample ["check"] (.num (.ofOrder false 0))).hash ∧
      ((sample ["check"] (.num (.ofOrder true 0))).compile (.ofText "Check this")).map
          Compilation.outline =
        ((sample ["check"] (.num (.ofOrder false 0))).compile (.ofText "Check this")).map
          Compilation.outline := by
  have zeros : (Json.num (.ofOrder true 0)).canonical = (Json.num (.ofOrder false 0)).canonical := by
    decide
  have outlines : (sample ["check"] (.num (.ofOrder true 0))).outline =
      (sample ["check"] (.num (.ofOrder false 0))).outline := by
    simp only [outline, mapExpansions, sample, List.map_cons, List.map_nil, Bundle.mapExpansion,
      outlined, zeros]
  have texts := congrArg Text.utf8 (content_canonical_eq_iff.2 outlines)
  have same := hash_eq_of_outline_eq outlines
  exact ⟨rfl, rfl, same, (compile_eq_of_hash_eq (fun _ => texts) same).2 _⟩

end Registry

end RequestCompiler
