import RequestCompiler.Proofs.Compile.ClosedWorld

/-!
# The canonical form of a checked program

A source that passes the check may be written with blanks and line ends of any kind and with its
deltas in any order and number. If its bundle directives carry the same deltas it has a canonical
text: `Canonical` says that this text is written for the one audience of the profile, passes the
check, restates the program and is its own canonical text. The deltas are carried as a multiset
(`Shares`), so it comes down to writing depending on no more than that (`canonicalize_perm`) and to
the grammar letting through only what can be written (`written_of_parse`).

`Registered` is what the check asks of a program, and `Reports` what it answers instead: one error for
each directive that names nothing registered, in the order of the lines.
-/

namespace RequestCompiler

namespace Program

/-- Every bundle directive carries these deltas, each as often, in an order of its own. Where there
is no bundle directive there are no deltas. -/
structure Shares (p : Program) (ds : List Delta) : Prop where
  carried : ∀ b ∈ p.bundles, b.deltas.Perm ds
  absent : p.bundles = [] → ds = []

/-- The second program has the ids of the first in their order, and in writing order the deltas. -/
structure Restates (p : Program) (ds : List Delta) (p' : Program) : Prop where
  profile : p'.profile.id = p.profile.id
  bundles : p'.bundles.map Directive.id = p.bundles.map Directive.id
  deltas : ∀ b ∈ p'.bundles, b.deltas.Perm ds ∧ b.deltas.Pairwise Delta.Before

variable {p p' : Program} {ds ds' : List Delta} {source : Text}

/-- The deltas that a program shares are those of its first bundle directive. -/
theorem Shares.perm (h : p.Shares ds) (h' : p.Shares ds') : ds.Perm ds' := by
  cases bundles : p.bundles with
  | nil => rw [h.absent bundles, h'.absent bundles]
  | cons b bs =>
    have first : b ∈ p.bundles := bundles ▸ List.mem_cons_self
    exact (h.carried b first).symm.trans (h'.carried b first)

theorem Restates.shares (h : p.Restates ds p') (shared : p.Shares ds) : p'.Shares ds where
  carried b member := (h.deltas b member).1
  absent none := by
    have ids := h.bundles
    rw [none, List.map_nil, eq_comm, List.map_eq_nil_iff] at ids
    exact shared.absent ids

/-- What a parsed program shares can be written. -/
theorem Shares.renderable (h : p.Shares ds) (parsed : parse source = .ok p) :
    ∀ d ∈ ds, d.isRenderable = true := by
  intro d member
  cases bundles : p.bundles with
  | nil => simp [h.absent bundles] at member
  | cons b bs =>
    have first : b ∈ p.bundles := bundles ▸ List.mem_cons_self
    exact (written_of_parse parsed b (List.mem_cons_of_mem _ first)).2 d
      ((h.carried b first).mem_iff.2 member)

/-- The order of the deltas does not show in what is written. -/
theorem render_perm (same : ds.Perm ds') (profile : Text) (bundles : List Text) :
    render profile bundles ds = render profile bundles ds' := by
  have sorted : Delta.sorted ds = Delta.sorted ds' :=
    Delta.sorted_unique ((Delta.sorted_perm ds).trans same) (Delta.sorted_pairwise ds)
  rw [render, render, suffix, suffix, sorted]

/-- A program is written and read back with the deltas that it shares, in writing order. -/
theorem Shares.exists_restated (h : p.Shares ds) (parsed : parse source = .ok p) :
    ∃ text p', render p.profile.id (p.bundles.map Directive.id) ds = .ok text ∧
      parse text = .ok p' ∧ p.Restates ds p' := by
  obtain ⟨-, isProfile, -, others⟩ := parse_eq_ok_iff.1 parsed
  have names := List.forall_mem_cons.1 (written_of_parse parsed)
  obtain ⟨text, rendered⟩ : ∃ text, render p.profile.id (p.bundles.map Directive.id) ds = .ok text :=
    ⟨_, render_eq_ok_iff.2 ⟨h.renderable parsed, rfl⟩⟩
  have reparsed := parse_of_render rendered names.1.1 isProfile
    (List.forall_mem_map.2 fun b member => (names.2 b member).1) (List.forall_mem_map.2 others)
  refine ⟨text, _, rendered, reparsed, rfl, ?_, ?_⟩
  · rw [List.map_map]
    exact List.zipIdx_map_fst _ _
  · exact List.forall_mem_map.2 fun _ _ => ⟨Delta.sorted_perm ds, Delta.sorted_pairwise ds⟩

/-- Directives stand on lines of their own, one below the other. -/
theorem lines_ascending (parsed : parse source = .ok p) :
    ((p.profile :: p.bundles).map Directive.line).Pairwise (· < ·) := by
  obtain ⟨⟨ls, ⟨all, -, rfl⟩, listed⟩, -⟩ := parse_eq_ok_iff.1 parsed
  have numbers := Pointwise.map_eq_map (f := Prod.snd) listed fun _ _ stands => stands.2.symm
  have ascending : ((all.zipIdx 1).map Prod.snd).Pairwise (· < ·) := by
    rw [List.zipIdx_map_snd]
    exact List.pairwise_lt_range'
  rw [← numbers]
  exact ascending.sublist (List.filter_sublist.map _)

end Program

/-- The line that an error is reported for. -/
def CheckError.line : CheckError → Nat
  | parse e => e.line
  | unknownProfile _ n => n
  | unknownBundle _ n => n

namespace Registry

variable {r : Registry} {p : Program} {ds ds' : List Delta} {source : Text}

/-- The ids of a program are those of profiles and bundles of the registry. -/
structure Registered (r : Registry) (p : Program) : Prop where
  profile : p.profile.id ∈ r.profiles.map Profile.id
  bundles : ∀ b ∈ p.bundles, b.id ∈ r.bundles.map Bundle.id

/-- The errors are one for each directive that names nothing registered, in the order of the
lines. -/
structure Reports (r : Registry) (p : Program) (errors : List CheckError) : Prop where
  some : errors ≠ []
  ascending : (errors.map CheckError.line).Pairwise (· < ·)
  profile : ∀ id n, .unknownProfile id n ∈ errors ↔
    id = p.profile.id ∧ n = p.profile.line ∧ id ∉ r.profiles.map Profile.id
  bundle : ∀ id n, .unknownBundle id n ∈ errors ↔
    ∃ b ∈ p.bundles, id = b.id ∧ n = b.line ∧ id ∉ r.bundles.map Bundle.id
  /-- The source itself is in order. -/
  parse : ∀ e, .parse e ∉ errors

/-- A text is the canonical form of a program whose bundle directives share the deltas, for the
audience. -/
structure Canonical (r : Registry) (p : Program) (ds : List Delta) (a : Audience) (text : Text) :
    Prop where
  audience : ∀ a', (r.profileFor a').id = p.profile.id ↔ a' = a
  written : r.canonicalize a (p.bundles.map Directive.id) ds = .ok text
  readBack : ∃ p', r.check text = .ok p' ∧ p.Restates ds p'
  /-- Whatever is read from the text is written as the text. -/
  fixed : ∀ p' ds', r.check text = .ok p' → p'.Shares ds' →
    r.canonicalize a (p'.bundles.map Directive.id) ds' = .ok text

theorem hasProfile_iff {id : Text} : r.hasProfile id = true ↔ id ∈ r.profiles.map Profile.id := by
  simp [hasProfile]

theorem hasBundle_iff {id : Text} : r.hasBundle id = true ↔ id ∈ r.bundles.map Bundle.id := by
  simp [hasBundle]

/-- The check passes the programs whose ids are registered. -/
theorem check_eq_ok_iff_registered :
    r.check source = .ok p ↔ Program.parse source = .ok p ∧ Registered r p := by
  simp only [check_eq_ok_iff, hasProfile_iff, hasBundle_iff]
  exact and_congr_right fun _ => ⟨fun h => ⟨h.1, h.2⟩, fun h => ⟨h.profile, h.bundles⟩⟩

section Strangers

theorem isEmpty_strangers_iff_registered : (r.strangers p).isEmpty = true ↔ Registered r p := by
  simp only [isEmpty_strangers_iff, hasProfile_iff, hasBundle_iff]
  exact ⟨fun h => ⟨h.1, h.2⟩, fun h => ⟨h.profile, h.bundles⟩⟩

theorem unknownProfile_mem_strangers {id : Text} {n : Nat} :
    .unknownProfile id n ∈ r.strangers p ↔
      id = p.profile.id ∧ n = p.profile.line ∧ r.hasProfile id ≠ true := by
  cases known : r.hasProfile p.profile.id <;> simp [strangers, known] <;> grind

theorem unknownBundle_mem_strangers {id : Text} {n : Nat} :
    .unknownBundle id n ∈ r.strangers p ↔
      ∃ b ∈ p.bundles, id = b.id ∧ n = b.line ∧ r.hasBundle id ≠ true := by
  cases known : r.hasProfile p.profile.id <;> simp [strangers, known] <;> grind

theorem parse_notMem_strangers (e : ParseError) : .parse e ∉ r.strangers p := by
  cases known : r.hasProfile p.profile.id <;> simp [strangers, known]

/-- The errors stand on some of the lines of the directives, in their order. -/
theorem lines_strangers :
    ((r.strangers p).map CheckError.line).Sublist ((p.profile :: p.bundles).map Directive.line) := by
  have bundles : ((p.bundles.filter fun b => !r.hasBundle b.id).map fun b => b.line).Sublist
      (p.bundles.map Directive.line) := List.filter_sublist.map _
  rw [strangers, List.map_append, List.map_map]
  split
  · exact bundles.cons _
  · exact bundles.cons_cons _

/-- A parsed program that is not registered is answered with the errors of its directives. -/
theorem check_eq_error (parsed : Program.parse source = .ok p) (foreign : ¬Registered r p) :
    ∃ errors, r.check source = .error errors ∧ Reports r p errors := by
  have refused : ¬(r.strangers p).isEmpty = true := mt isEmpty_strangers_iff_registered.1 foreign
  refine ⟨r.strangers p, by simp only [check, parsed, if_neg refused], ?_⟩
  exact
    { some := fun none => refused (List.isEmpty_iff.2 none)
      ascending := (Program.lines_ascending parsed).sublist lines_strangers
      profile := fun _ _ => by rw [unknownProfile_mem_strangers, Ne, hasProfile_iff]
      bundle := fun _ _ => by simp only [unknownBundle_mem_strangers, Ne, hasBundle_iff]
      parse := parse_notMem_strangers }

end Strangers

/-- The order of the deltas does not show in the canonical text. -/
theorem canonicalize_perm (same : ds.Perm ds') (a : Audience) (ids : List Text) :
    r.canonicalize a ids ds = r.canonicalize a ids ds' := by
  unfold canonicalize
  rw [Program.render_perm same]

/-- Only the ids of a program decide whether it is registered. -/
theorem Registered.restated {p' : Program} (h : Registered r p) (restated : p.Restates ds p') :
    Registered r p' where
  profile := restated.profile ▸ h.profile
  bundles := by
    have ids := h.bundles
    rw [← List.forall_mem_map (f := Directive.id) (P := fun id => id ∈ r.bundles.map Bundle.id),
      ← restated.bundles] at ids
    exact List.forall_mem_map.1 ids

/-- A registered program whose bundle directives share their deltas has a canonical form. -/
theorem Registered.exists_canonical {document : Json} (registered : Registered r p)
    (accepted : ofDocument document = .ok r) (parsed : Program.parse source = .ok p)
    (shared : p.Shares ds) : ∃ a text, Canonical r p ds a text := by
  obtain ⟨profile, listed, own⟩ := List.mem_map.1 registered.profile
  obtain ⟨a, -, rfl⟩ := List.mem_map.1 listed
  obtain ⟨text, p', rendered, reparsed, restated⟩ := shared.exists_restated parsed
  have known : ∀ id ∈ p.bundles.map Directive.id, r.hasBundle id = true :=
    List.forall_mem_map.2 fun b member => hasBundle_iff.2 (registered.bundles b member)
  have written : r.canonicalize a (p.bundles.map Directive.id) ds = .ok text :=
    canonicalize_eq_ok_iff.2 ⟨known, own ▸ rendered⟩
  have passed := check_eq_ok_iff_registered.2 ⟨reparsed, registered.restated restated⟩
  refine ⟨a, text, fun a' => ?_, written, ⟨p', passed, restated⟩, fun p'' ds' passed' shared' => ?_⟩
  · have apart : a'.profileId = a.profileId ↔ a' = a := by
      simpa using idOf_injective.eq_iff (a := a') (b := a)
    rw [← own, Profile.id, Profile.id, audience_profileFor accepted, audience_profileFor accepted, apart]
  · obtain rfl := Except.ok.inj (passed'.symm.trans passed)
    rw [restated.bundles, canonicalize_perm (shared'.perm (restated.shares shared))]
    exact written

/-- A source that passes the check has a canonical form in the closed world, if its bundle directives
share their deltas. The check passes exactly the programs whose ids are registered; a program with
others is answered with an error for each of these, in the order and with the numbers of their lines. -/
theorem check_canonical {document : Json} (accepted : ofDocument document = .ok r) (source : Text) :
    (∀ p ds, r.check source = .ok p → p.Shares ds → ∃ a text, Canonical r p ds a text) ∧
      (∀ p, r.check source = .ok p ↔ Program.parse source = .ok p ∧ Registered r p) ∧
      ∀ p, Program.parse source = .ok p → ¬Registered r p →
        p.Lists source ∧ ∃ errors, r.check source = .error errors ∧ Reports r p errors := by
  refine ⟨fun p ds passed shared => ?_, fun p => check_eq_ok_iff_registered, fun p parsed foreign => ?_⟩
  · obtain ⟨parsed, registered⟩ := check_eq_ok_iff_registered.1 passed
    exact registered.exists_canonical accepted parsed shared
  · exact ⟨(Program.parse_eq_ok_iff.1 parsed).1, check_eq_error parsed foreign⟩

/-- Lines that end in different ways, blank lines and blanks, and two bundle directives with the same
deltas in different orders. -/
def looseSource : Text :=
  Text.ofString "\r\n  use:profile.audit.v1 \n\n\tuse:code.review.v1  +b=2 +a=1\t+b=2\r\n"
    ++ "use:code.review.v1 +b=2 +b=2 +a=1 "

/-- What is read from it. -/
def looseProgram : Program where
  profile := ⟨"profile.audit.v1", [], 2⟩
  bundles := [⟨"code.review.v1", [⟨"b", "2"⟩, ⟨"a", "1"⟩, ⟨"b", "2"⟩], 4⟩,
    ⟨"code.review.v1", [⟨"b", "2"⟩, ⟨"b", "2"⟩, ⟨"a", "1"⟩], 5⟩]

theorem check_canonical_loose :
    ofDocument (singleDocument "code.review.v1") = .ok (single "code.review.v1") ∧
      (single "code.review.v1").check looseSource = .ok looseProgram ∧
      (∃ a text, Canonical (single "code.review.v1") looseProgram
        [⟨"a", "1"⟩, ⟨"b", "2"⟩, ⟨"b", "2"⟩] a text) ∧
      ∃ errors, (single "another.v1").check looseSource = .error errors ∧
        Reports (single "another.v1") looseProgram errors := by
  have parsed : Program.parse looseSource = .ok looseProgram := by decide +kernel
  have passed : (single "code.review.v1").check looseSource = .ok looseProgram :=
    check_eq_ok_iff_registered.2 ⟨parsed, by decide, by decide⟩
  have shared : looseProgram.Shares [⟨"a", "1"⟩, ⟨"b", "2"⟩, ⟨"b", "2"⟩] := ⟨by decide, nofun⟩
  have foreign : ¬Registered (single "another.v1") looseProgram := fun registered =>
    absurd (registered.bundles _ List.mem_cons_self) (by decide)
  have accepted : ∀ id : Text, id = "code.review.v1" ∨ id = "another.v1" →
      ofDocument (singleDocument id) = .ok (single id) := by
    rintro id (rfl | rfl) <;> rfl
  exact ⟨accepted _ (.inl rfl), passed,
    (check_canonical (accepted _ (.inl rfl)) looseSource).1 _ _ passed shared,
    ((check_canonical (accepted _ (.inr rfl)) looseSource).2.2 _ parsed foreign).2⟩

end Registry

end RequestCompiler
