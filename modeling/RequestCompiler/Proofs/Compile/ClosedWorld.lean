import RequestCompiler.Compile.Check
import RequestCompiler.Proofs.Compile.Answer

/-!
# Checking what was rendered

`Registry.ReadBack` says that the check passes a rendered text and finds the selected bundle in
it. Ids are written as they are, and the grammar of directives does not know every id that a
registry may hold: `readBack_iff` says for which ids the text is read back, and
`not_always_readBack` that an accepted document can have a bundle without such an id.
-/

namespace RequestCompiler.Registry

theorem isEmpty_strangers_iff {r : Registry} {p : Program} : (r.strangers p).isEmpty = true ↔
    r.hasProfile p.profile.id = true ∧ ∀ d ∈ p.bundles, r.hasBundle d.id = true := by
  simp [strangers]

theorem check_eq_ok_iff {r : Registry} {source : Text} {p : Program} :
    r.check source = .ok p ↔ Program.parse source = .ok p ∧ r.hasProfile p.profile.id = true ∧
      ∀ d ∈ p.bundles, r.hasBundle d.id = true := by
  unfold check
  cases parsed : Program.parse source with
  | error errors => simp
  | ok p' =>
    by_cases passed : (r.strangers p').isEmpty = true
    · simp only [if_pos passed, Except.ok.injEq]
      constructor
      · rintro rfl
        exact ⟨rfl, isEmpty_strangers_iff.1 passed⟩
      · exact fun h => h.1
    · simp only [if_neg passed, Except.ok.injEq]
      refine iff_of_false nofun ?_
      rintro ⟨rfl, registered⟩
      exact passed (isEmpty_strangers_iff.2 registered)

/-- The check passes the rendered text, and the program in it has the profile of the audience
without deltas and, as its only bundle directive, that of the bundle with the deltas of the
request in writing order. -/
def ReadBack (r : Registry) (q : Request) (c : Compilation) (b : Bundle) : Prop :=
  ∃ p d, r.check c.dsl = .ok p ∧ p.profile.id = (r.profileFor c.audience).id ∧
    p.profile.deltas = [] ∧ p.bundles = [d] ∧ d.id = b.id ∧ d.deltas.Perm q.deltasOrDefault ∧
    d.deltas.Pairwise Delta.Before

variable {r : Registry} {q : Request} {c : Compilation} {b : Bundle}

/-- The ids that directives can name are the only ones that a passed program names. -/
theorem ReadBack.id (h : ReadBack r q c b) :
    isName b.id = true ∧ Directive.isProfileId b.id = false := by
  obtain ⟨p, d, passed, -, -, bundles, same, -⟩ := h
  have parsed := (check_eq_ok_iff.1 passed).1
  have others := (Program.parse_eq_ok_iff.1 parsed).2.2.2
  have names := Program.written_of_parse parsed
  rw [bundles] at others names
  rw [← same]
  exact ⟨(names d (by simp)).1, others d (by simp)⟩

theorem isName_profileId (a : Audience) :
    isName a.profileId = true ∧ Directive.isProfileId a.profileId = true := by
  cases a <;> decide

theorem ReadBack.of_id (name : isName b.id = true) (other : Directive.isProfileId b.id = false)
    (written : r.canonicalize c.audience [b.id] q.deltasOrDefault = .ok c.dsl) :
    ReadBack r q c b := by
  obtain ⟨registered, rendered⟩ := canonicalize_eq_ok_iff.1 written
  obtain ⟨profileName, isProfile⟩ := isName_profileId (r.profileFor c.audience).audience
  have parsed := Program.parse_of_render rendered profileName isProfile (by simpa using name)
    (by simpa using other)
  have passed := check_eq_ok_iff.2 ⟨parsed, hasProfile_profileFor r c.audience, by simpa using registered⟩
  exact ⟨_, _, passed, rfl, rfl, rfl, rfl, Delta.sorted_perm _, Delta.sorted_pairwise _⟩

/-- A rendered text is read back exactly if the id of the selected bundle is a name and does not
start like the id of a profile. -/
theorem readBack_iff (compiled : r.compile q = .ok c) (state : c.state = .render) :
    ∃ b, c.matched.bundle = some b ∧
      (ReadBack r q c b ↔ isName b.id = true ∧ Directive.isProfileId b.id = false) := by
  cases compile_eq_ok_iff.1 compiled with
  | clarified undecided => cases state
  | @rendered b dsl decided written =>
    have selected := (renderedBundle?_eq_some_iff.1 decided).2
    exact ⟨b, selected, ReadBack.id, fun h => .of_id h.1 h.2 written⟩

theorem readBack_iff_single :
    ∃ c, (single "code.review.v1").compile singleRequest = .ok c ∧ c.state = .render ∧
      c.matched.bundle = some (singleBundle "code.review.v1") ∧
      ReadBack (single "code.review.v1") singleRequest c (singleBundle "code.review.v1") := by
  obtain ⟨c, compiled, state, selected⟩ := compile_single "code.review.v1"
  obtain ⟨b, same, iff⟩ := readBack_iff compiled state
  obtain rfl := Option.some.inj (selected.symm.trans same)
  exact ⟨c, compiled, state, selected, iff.2 (by decide)⟩

/-- An id with a blank in it is accepted, selected and rendered, and not read back. -/
theorem not_always_readBack :
    ¬∀ document r q c, ofDocument document = .ok r → r.compile q = .ok c → c.state = .render →
      ∃ b, c.matched.bundle = some b ∧ ReadBack r q c b := by
  intro always
  obtain ⟨c, compiled, state, selected⟩ := compile_single "code review"
  obtain ⟨b, same, readBack⟩ :=
    always (singleDocument "code review") _ _ c rfl compiled state
  obtain rfl := Option.some.inj (selected.symm.trans same)
  exact absurd readBack.id.1 (by decide)

end RequestCompiler.Registry
