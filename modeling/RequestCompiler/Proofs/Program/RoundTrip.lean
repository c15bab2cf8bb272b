import RequestCompiler.Proofs.Delta.Order
import RequestCompiler.Proofs.Program.Grammar

/-!
# Reading back what was rendered

`render_eq_ok_iff` gives the rendered text line by line: each line is `Directive.canonicalLine`
of an id and the sorted deltas. Such a line has the form of a directive, holds no line end and
neither starts nor ends in a blank, so `parse_of_render` reads the program back.
-/

namespace RequestCompiler

namespace Text

/-- Tokens behind single spaces are spaced. -/
theorem spaced_flatMap {tokens : List Text} (solid : ∀ t ∈ tokens, isSolid t = true) :
    Spaced (tokens.flatMap (unit ' ' :: ·)) tokens := by
  induction tokens with
  | nil => exact .nil
  | cons t ts ih =>
    have space : ∀ u ∈ [unit ' '], isBlank u = true := List.all_eq_true.1 (by decide)
    have rest := ih fun t ht => solid t (List.mem_cons_of_mem _ ht)
    exact .cons (by simp) space (solid t (by simp)) rest

theorem isBlank_getLast_append {s t : Text} (hs : ∀ u ∈ s.getLast?, isBlank u = false)
    (ht : ∀ u ∈ t.getLast?, isBlank u = false) : ∀ u ∈ (s ++ t).getLast?, isBlank u = false := by
  intro u hu
  rw [List.getLast?_append, Option.mem_def, Option.or_eq_some_iff] at hu
  rcases hu with hu | ⟨-, hu⟩
  · exact ht u hu
  · exact hs u hu

/-- A spaced text does not end in a blank. -/
theorem Spaced.isBlank_getLast {tail : Text} {tokens : List Text} (h : Spaced tail tokens) :
    ∀ u ∈ tail.getLast?, isBlank u = false := by
  induction h with
  | nil => simp
  | cons _ _ solid _ ih =>
    obtain ⟨ne, units⟩ := isSolid_iff.1 solid
    refine isBlank_getLast_append (fun u hu => units u ?_) ih
    rw [List.getLast?_append_of_ne_nil _ ne] at hu
    exact List.mem_of_getLast? hu

/-- Joining with spaces is putting a space in front of every piece but the first. -/
theorem cons_join_space (t : Text) (ts : List Text) :
    unit ' ' :: join [unit ' '] (t :: ts) = (t :: ts).flatMap (unit ' ' :: ·) := by
  induction ts generalizing t with
  | nil => simp [join]
  | cons next ts ih =>
    rw [List.flatMap_cons, ← ih next]
    simp [join]

end Text

namespace Directive

theorem solid_lead : ∀ u ∈ lead, Text.isBlank u = false := (isSolid_iff.1 (by decide)).2

/-- The line of an id and deltas: `use:`, the id, and each token behind one space. -/
def canonicalLine (deltas : List Delta) (id : Text) : Text :=
  lead ++ (id ++ (deltas.map Delta.token).flatMap (unit ' ' :: ·))

theorem written_canonicalLine {id : Text} {deltas : List Delta} (name : isName id = true)
    (renderable : ∀ d ∈ deltas, d.isRenderable = true) :
    Written (canonicalLine deltas id) id deltas where
  name := name
  renderable := renderable
  form := ⟨_, rfl, Text.spaced_flatMap (by simpa using fun d hd => Delta.isSolid_token (renderable d hd))⟩

/-- A line that has the form of a directive is trimmed. -/
theorem Written.trim_eq {line id : Text} {deltas : List Delta} (h : Written line id deltas) :
    line.trim = line := by
  obtain ⟨tail, rfl, spaced⟩ := h.form
  obtain ⟨-, units⟩ := isSolid_iff.1 (isSolid_of_isName h.name)
  have first : (lead ++ (id ++ tail)).head? = some (unit 'u') := rfl
  have last := Text.isBlank_getLast_append (s := id) (t := tail)
    (fun u hu => units u (List.mem_of_getLast? hu)) spaced.isBlank_getLast
  have inLead : ∀ u ∈ lead.getLast?, Text.isBlank u = false := fun u hu =>
    solid_lead u (List.mem_of_getLast? hu)
  refine Text.trim_eq_self (fun u hu => ?_) (Text.isBlank_getLast_append inLead last)
  rw [first] at hu
  exact Option.some.inj hu ▸ by decide

/-- The only blank of a canonical line is the space. -/
theorem not_mem_canonicalLine {id : Text} {deltas : List Delta} {u : UInt16}
    (name : isName id = true) (renderable : ∀ d ∈ deltas, d.isRenderable = true)
    (blank : Text.isBlank u = true) (other : u ≠ unit ' ') : u ∉ canonicalLine deltas id := by
  intro member
  simp only [canonicalLine, List.mem_append, List.mem_flatMap, List.mem_map, List.mem_cons] at member
  rcases member with hu | hu | ⟨_, ⟨d, hd, rfl⟩, hu | hu⟩
  · simp [solid_lead u hu] at blank
  · simp [(isSolid_iff.1 (isSolid_of_isName name)).2 u hu] at blank
  · exact other hu
  · simp [(isSolid_iff.1 (Delta.isSolid_token (renderable d hd))).2 u hu] at blank

/-- Canonical lines are what the lines of a text can be: without line ends. -/
theorem whole_canonicalLine {id : Text} {deltas : List Delta} (name : isName id = true)
    (renderable : ∀ d ∈ deltas, d.isRenderable = true) :
    unit '\n' ∉ canonicalLine deltas id ∧ (canonicalLine deltas id).getLast? ≠ some (unit '\r') := by
  have noReturn : unit '\r' ∉ canonicalLine deltas id :=
    not_mem_canonicalLine name renderable (by decide) (by decide)
  exact ⟨not_mem_canonicalLine name renderable (by decide) (by decide),
    fun last => noReturn (List.mem_of_getLast? last)⟩

/-- A canonical line is the directive of its id and deltas. -/
theorem isDirective_canonicalLine {id : Text} {deltas : List Delta} (name : isName id = true)
    (renderable : ∀ d ∈ deltas, d.isRenderable = true) (n : Nat) :
    Program.IsDirective (canonicalLine deltas id, n) ⟨id, deltas, n⟩ := by
  have written := written_canonicalLine name renderable
  exact ⟨written.trim_eq.symm ▸ written, rfl⟩

end Directive

namespace Program

/-- Exactly the renderable deltas have tokens, in their order. -/
theorem mapM_format_eq_ok_iff {ds : List Delta} {ts : List Text} :
    ds.mapM Delta.format = .ok ts ↔
      (∀ d ∈ ds, d.isRenderable = true) ∧ ds.map Delta.token = ts := by
  have each : ∀ (d : Delta) t, d.format = .ok t ↔ d.isRenderable = true ∧ d.token = t := fun d t =>
    Delta.format_eq_ok_iff.trans (and_congr_right fun _ => eq_comm)
  simp only [mapM_eq_ok_iff, each, List.forall₂_and_left]
  refine and_congr_right fun _ => ?_
  rw [← List.forall₂_map_left_iff (R := Eq) (f := Delta.token), List.forall₂_eq_eq_eq]

/-- The delta tokens of a bundle line stand behind its id as in a canonical line. -/
theorem bundleLine_join (ds : List Delta) (id : Text) :
    bundleLine (Text.join [unit ' '] (ds.map Delta.token)) id = Directive.canonicalLine ds id := by
  cases ds with
  | nil => simp [bundleLine, Text.join, Directive.canonicalLine]
  | cons d ds =>
    have spaces := Text.cons_join_space d.token (ds.map Delta.token)
    have some : (Text.join [unit ' '] (d.token :: ds.map Delta.token)).isEmpty = false := by
      cases ds <;> simp [Text.join, Delta.token_eq]
    simp only [bundleLine, List.map_cons, some, Directive.canonicalLine, ← spaces]
    simp

/-- Rendering answers exactly for renderable deltas, and then with the canonical lines of the
ids, the profile without deltas and every bundle with all of them in sorted order. -/
theorem render_eq_ok_iff {profile dsl : Text} {bundles : List Text} {deltas : List Delta} :
    render profile bundles deltas = .ok dsl ↔
      (∀ d ∈ deltas, d.isRenderable = true) ∧
        dsl = Text.join [unit '\n'] (Directive.canonicalLine [] profile ::
          bundles.map (Directive.canonicalLine (Delta.sorted deltas))) := by
  have sorted : (∀ d ∈ Delta.sorted deltas, d.isRenderable = true) ↔
      ∀ d ∈ deltas, d.isRenderable = true := by simp only [Delta.mem_sorted]
  have space : Text.ofString " " = [unit ' '] := by decide
  have lines : bundleLine (Text.join [unit ' '] ((Delta.sorted deltas).map Delta.token)) =
      Directive.canonicalLine (Delta.sorted deltas) := funext (bundleLine_join _)
  have first : Directive.canonicalLine [] profile = Directive.lead ++ profile := by
    simp [Directive.canonicalLine]
  rw [render, suffix, space, map_eq_ok_iff]
  constructor
  · rintro ⟨_, answered, rfl⟩
    obtain ⟨_, tokens, rfl⟩ := map_eq_ok_iff.1 answered
    obtain ⟨renderable, rfl⟩ := mapM_format_eq_ok_iff.1 tokens
    exact ⟨sorted.1 renderable, by rw [lines, first]⟩
  · rintro ⟨renderable, rfl⟩
    have tokens := mapM_format_eq_ok_iff.2 ⟨sorted.2 renderable, rfl⟩
    exact ⟨_, map_eq_ok_iff.2 ⟨_, tokens, rfl⟩, by rw [lines, first]⟩

/-- The canonical lines of ids are the directives of these ids, numbered like them. -/
theorem forall₂_canonicalLine {ids : List Text} {ds : List Delta}
    (names : ∀ id ∈ ids, isName id = true) (renderable : ∀ d ∈ ds, d.isRenderable = true) (n : Nat) :
    List.Forall₂ IsDirective ((ids.map (Directive.canonicalLine ds)).zipIdx n)
      ((ids.zipIdx n).map fun b => ⟨b.1, ds, b.2⟩) := by
  induction ids generalizing n with
  | nil => exact .nil
  | cons id ids ih =>
    have first := Directive.isDirective_canonicalLine (names id (by simp)) renderable n
    exact .cons first (ih (fun id hid => names id (List.mem_cons_of_mem _ hid)) (n + 1))

/-- No line of a directive is blank. -/
theorem filter_directives {ls : List (Text × Nat)} {ds : List Directive}
    (h : List.Forall₂ IsDirective ls ds) : ls.filter (fun l => l.1.trim ≠ []) = ls := by
  induction h with
  | nil => rfl
  | @cons l d _ _ head _ ih =>
    obtain ⟨tail, form, -⟩ := head.1.form
    have some : l.1.trim ≠ [] := form ▸ List.cons_ne_nil _ _
    rw [List.filter_cons_of_pos (by simpa using some), ih]

/-- What was rendered is read back, line by line. -/
theorem parse_of_render {profile dsl : Text} {bundles : List Text} {deltas : List Delta}
    (rendered : render profile bundles deltas = .ok dsl)
    (profileName : isName profile = true) (isProfile : Directive.isProfileId profile = true)
    (names : ∀ b ∈ bundles, isName b = true)
    (others : ∀ b ∈ bundles, Directive.isProfileId b = false) :
    parse dsl = .ok ⟨⟨profile, [], 1⟩,
      (bundles.zipIdx 2).map fun b => ⟨b.1, Delta.sorted deltas, b.2⟩⟩ := by
  obtain ⟨renderable, rfl⟩ := render_eq_ok_iff.1 rendered
  have sorted : ∀ d ∈ Delta.sorted deltas, d.isRenderable = true := fun d hd =>
    renderable d (Delta.mem_sorted.1 hd)
  have none : ∀ d ∈ ([] : List Delta), d.isRenderable = true := nofun
  have first := Directive.isDirective_canonicalLine profileName none 1
  have listed := List.Forall₂.cons first (forall₂_canonicalLine names sorted 2)
  rw [parse_eq_ok_iff]
  refine ⟨⟨_, ⟨_, Text.broken_join ?_, (filter_directives listed).symm⟩, listed⟩, isProfile, rfl, ?_⟩
  · intro l hl
    rcases List.mem_cons.1 hl with rfl | hl
    · exact Directive.whole_canonicalLine profileName none
    · obtain ⟨b, hb, rfl⟩ := List.mem_map.1 hl
      exact Directive.whole_canonicalLine (names b hb) sorted
  intro d hd
  obtain ⟨b, hb, rfl⟩ := List.mem_map.1 hd
  exact others b.1 (List.fst_mem_of_mem_zipIdx hb)

/-- Parsing undoes rendering, for all ids that directives can name and all deltas that can be
written: the program has the profile on its first line and then every bundle in order, each with
the given deltas sorted by key and value and each of them as often as it was given. -/
theorem parse_render {profile : Text} {bundles : List Text} {deltas : List Delta}
    (profileName : isName profile = true) (isProfile : Directive.isProfileId profile = true)
    (names : ∀ b ∈ bundles, isName b = true)
    (others : ∀ b ∈ bundles, Directive.isProfileId b = false)
    (writable : ∀ d ∈ deltas, ∃ t, d.format = .ok t) :
    ∃ dsl ordered, render profile bundles deltas = .ok dsl ∧
      ordered.Perm deltas ∧ ordered.Pairwise Delta.Before ∧
      parse dsl = .ok ⟨⟨profile, [], 1⟩, (bundles.zipIdx 2).map fun b => ⟨b.1, ordered, b.2⟩⟩ := by
  have renderable : ∀ d ∈ deltas, d.isRenderable = true := fun d hd => by
    obtain ⟨t, ht⟩ := writable d hd
    exact (Delta.format_eq_ok_iff.1 ht).1
  have rendered : render profile bundles deltas = .ok _ := render_eq_ok_iff.2 ⟨renderable, rfl⟩
  exact ⟨_, Delta.sorted deltas, rendered, Delta.sorted_perm deltas, Delta.sorted_pairwise deltas,
    parse_of_render rendered profileName isProfile names others⟩

/-- Deltas whose values look like directives, tokens, separators and quotes. -/
def lookalikes : List Delta :=
  [⟨"note", "use:b.v1"⟩, ⟨"a", "+k==v"⟩, ⟨"note", "use:b.v1"⟩, ⟨"a", "\""⟩]

theorem parse_render_lookalikes :
    ∃ dsl ordered, render "profile.dev.v1" ["code.v1", "b.v1"] lookalikes = .ok dsl ∧
      ordered.Perm lookalikes ∧ ordered.Pairwise Delta.Before ∧
      parse dsl = .ok ⟨⟨"profile.dev.v1", [], 1⟩, [⟨"code.v1", ordered, 2⟩, ⟨"b.v1", ordered, 3⟩]⟩ :=
  parse_render (by decide) (by decide) (by decide) (by decide) fun d hd =>
    ⟨d.token, Delta.format_eq_ok_iff.2 ⟨by revert d; decide, rfl⟩⟩

end Program

end RequestCompiler
