import RequestCompiler.Proofs.Compile.CanonicalForm
import RequestCompiler.Proofs.Compile.Violation

/-!
# The order in which deltas are given

Deltas are written in an order of their own, which is total on all keys and values, writable or not, so a
list of deltas and a permutation of it render alike (`render_any_order`): as the same text, or with the
violation of the same delta. `Carried` says what the text makes of the deltas: every bundle line ends in
their tokens, ascending, each as often as its delta was given.
-/

namespace RequestCompiler.Program

/-- The deltas as they stand behind the id of a bundle line: the token of each as often as the delta was
given, behind one space, by key and then by value. -/
structure Carried (ds : List Delta) (tail : Text) : Prop where
  tokens : ∃ es : List Delta, (∀ d, es.count d = ds.count d) ∧ es.Pairwise Delta.Before ∧
    tail = es.flatMap (fun d => unit ' ' :: d.token) ∧
    -- The tokens are the words of the line behind the id, and each is read as its delta.
    Text.words tail = [] :: es.map Delta.token ∧ ∀ d ∈ es, Delta.parse d.token = .ok d

/-- A rendered text: the profile line, and for each bundle a line that carries the deltas. -/
structure Lined (profile : Text) (bundles : List Text) (ds : List Delta) (text : Text) : Prop where
  lines : ∃ tail, Carried ds tail ∧
    text = Text.join [unit '\n'] (("use:" ++ profile : Text) :: bundles.map fun id => "use:" ++ id ++ tail)

theorem carried_sorted {ds : List Delta} (renderable : ∀ d ∈ ds, d.isRenderable = true) :
    Carried ds ((Delta.sorted ds).flatMap fun d => unit ' ' :: d.token) where
  tokens := by
    have sorted : ∀ d ∈ Delta.sorted ds, d.isRenderable = true := fun d member =>
      renderable d (Delta.mem_sorted.1 member)
    have solid : ∀ t ∈ (Delta.sorted ds).map Delta.token, isSolid t = true :=
      List.forall_mem_map.2 fun d member => Delta.isSolid_token (sorted d member)
    have spaced := Text.spaced_flatMap solid
    rw [List.flatMap_map] at spaced
    exact ⟨Delta.sorted ds, fun d => (Delta.sorted_perm ds).count_eq d, Delta.sorted_pairwise ds, rfl,
      spaced.words, fun d member => Delta.parse_token (sorted d member)⟩

/-- What is rendered are lines that carry the deltas. -/
theorem lined_of_render {profile text : Text} {bundles : List Text} {ds : List Delta}
    (rendered : render profile bundles ds = .ok text) : Lined profile bundles ds text := by
  obtain ⟨renderable, rfl⟩ := render_eq_ok_iff.1 rendered
  have lead : Text.ofString "use:" = Directive.lead := rfl
  have lines : Directive.canonicalLine (Delta.sorted ds) = fun id =>
      "use:" ++ id ++ (Delta.sorted ds).flatMap fun d => unit ' ' :: d.token := by
    funext id
    simp [Directive.canonicalLine, lead, List.flatMap_map]
  have first : Directive.canonicalLine [] profile = "use:" ++ profile := by
    simp [Directive.canonicalLine, lead]
  exact ⟨_, carried_sorted renderable, by rw [lines, first]⟩

/-- A list of deltas and a permutation of it are rendered as the same text, whose bundle lines carry every
delta as often as it was given in ascending order, or are refused with the same violation, that of the
first delta in this order that cannot be written. -/
theorem render_any_order (profile : Text) (bundles : List Text) {ds ds' : List Delta}
    (same : ds'.Perm ds) :
    (∃ text, render profile bundles ds = .ok text ∧ render profile bundles ds' = .ok text ∧
      Lined profile bundles ds text) ∨
    ∃ e, render profile bundles ds = .error e ∧ render profile bundles ds' = .error e ∧
      Delta.FirstUnwritable ds e := by
  have alike := render_perm same profile bundles
  cases rendered : render profile bundles ds with
  | ok text => exact .inl ⟨text, rfl, alike.trans rendered, lined_of_render rendered⟩
  | error e => exact .inr ⟨e, rfl, alike.trans rendered, render_eq_error_iff.1 rendered⟩

/-- A delta given twice, and two that cannot be written. -/
def repeatedDeltas : List Delta := [⟨"note", "b"⟩, ⟨"depth", "full"⟩, ⟨"note", "b"⟩, ⟨"note", "+a"⟩]

def brokenDeltas : List Delta := [⟨"two words", "x"⟩, ⟨"note", "b"⟩, ⟨"a", "\t"⟩]

theorem render_any_order_repeated :
    (∃ text, render "profile.dev.v1" ["code.v1", "b.v1"] repeatedDeltas = .ok text ∧
      render "profile.dev.v1" ["code.v1", "b.v1"] repeatedDeltas.reverse = .ok text ∧
      Lined "profile.dev.v1" ["code.v1", "b.v1"] repeatedDeltas text) ∧
    ∃ e, render "profile.dev.v1" ["code.v1"] brokenDeltas = .error e ∧
      render "profile.dev.v1" ["code.v1"] brokenDeltas.reverse = .error e ∧
      Delta.FirstUnwritable brokenDeltas e := by
  have writable : ∀ d ∈ repeatedDeltas, d.isRenderable = true := by decide
  have broken : ¬∀ d ∈ brokenDeltas, d.isRenderable = true := by decide
  have repeated := render_any_order "profile.dev.v1" ["code.v1", "b.v1"] repeatedDeltas.reverse_perm
  have refused := render_any_order "profile.dev.v1" ["code.v1"] brokenDeltas.reverse_perm
  refine ⟨repeated.resolve_right ?_, refused.resolve_left ?_⟩
  · rintro ⟨e, -, -, first⟩
    obtain ⟨d, member, unwritable⟩ := exists_firstUnwritable_iff.1 ⟨e, first⟩
    exact unwritable (writable d member)
  · rintro ⟨text, rendered, -⟩
    exact broken (render_eq_ok_iff.1 rendered).1

end RequestCompiler.Program
