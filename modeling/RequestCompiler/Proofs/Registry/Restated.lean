import RequestCompiler.Proofs.Registry.Gate
import RequestCompiler.Proofs.Registry.Passage
import RequestCompiler.Proofs.Text.Lower

/-!
# Registries written down again

`Registry.restated` is the document that lists the definitions of a registry, with the keywords of each
bundle where its entry declares them. Any document with such entries `Restates` the registry; its
profiles may stand in any order, and its words may hold repeats that are left out again. What an
accepted document made has nothing in it that a second check would change (`Settled`), so every document
that restates it is accepted as the same registry (`Restates.accepted`).
-/

namespace RequestCompiler

namespace Json

variable {key other : String} {v : Json} {fields : List (String × Json)}

theorem field?_object_same : (object ((key, v) :: fields)).field? (Text.ofString key) = some v := by
  simp [object, field?, Fields.get?]

theorem field?_object_other (apart : Text.ofString other ≠ Text.ofString key) :
    (object ((other, v) :: fields)).field? (Text.ofString key) =
      (object fields).field? (Text.ofString key) := by
  simp [object, field?, Fields.get?, apart]

end Json

/-- The entry that declares a bundle. A list of keywords beside the `match`, as in the listing of a
bundle, would be a field that no check reads. -/
def Bundle.entry (b : Bundle) : Json :=
  .object [("id", .str b.id), ("name", .str b.name), ("domain", .str b.domain), ("task", .str b.task),
    ("match", .object [("keywords_any", .texts b.keywords)]), ("expansion", b.expansion)]

namespace Registry

/-- The document of a registry's profiles and bundles. -/
def restated (r : Registry) : Json :=
  .object [("profiles", .arr (r.profiles.map Profile.json)),
    ("bundles", .arr (r.bundles.map Bundle.entry))]

/-- The expansion is one that its copy leaves as it is. -/
structure SettledExpansion (j : Json) : Prop where
  present : j ≠ .null
  plain : Expansion.Plain j

/-- The bundle has an id and words to be found by, and neither the words nor the expansion would be
changed by a check. -/
structure SettledBundle (b : Bundle) : Prop where
  id : b.id.trim ≠ []
  ne : b.keywords ≠ []
  solid : ∀ k ∈ b.keywords, k.trim ≠ []
  distinct : (b.keywords.map Text.lower).Nodup
  expansion : SettledExpansion b.expansion

/-- Nothing in the registry would be changed by a check. -/
structure Settled (r : Registry) : Prop where
  audience : ∀ a, (r.profileFor a).audience = a
  profiles : ∀ p ∈ r.profiles, SettledExpansion p.expansion
  bundles : ∀ b ∈ r.bundles, SettledBundle b
  distinct : (r.bundles.map Bundle.id).Nodup

/-- The entry states the profile in full. -/
structure ProfileWritten (entry : Json) (p : Profile) : Prop where
  id : entry.field? "id" = some (.str p.id)
  name : entry.field? "name" = some (.str p.name)
  expansion : entry.field? "expansion" = some p.expansion

/-- The entry states the bundle in full. Its words may hold repeats. -/
structure BundleWritten (entry : Json) (b : Bundle) : Prop where
  id : entry.field? "id" = some (.str b.id)
  name : entry.field? "name" = some (.str b.name)
  domain : entry.field? "domain" = some (.str b.domain)
  task : entry.field? "task" = some (.str b.task)
  keywords : ∃ m ks, entry.field? "match" = some m ∧ m.field? "keywords_any" = some (.texts ks) ∧
    withoutRepeats ks = b.keywords
  expansion : entry.field? "expansion" = some b.expansion

/-- The document states the profiles in some order and the bundles in theirs. -/
structure Restates (r : Registry) (document : Json) : Prop where
  profiles : ∃ entries ps, document.field? "profiles" = some (.arr entries) ∧
    List.Forall₂ ProfileWritten entries ps ∧ ps.Perm r.profiles
  bundles : ∃ entries, document.field? "bundles" = some (.arr entries) ∧
    List.Forall₂ BundleWritten entries r.bundles

section Settled

variable {document entry : Json} {r : Registry}

/-- The copy of an expansion is settled. -/
theorem settledExpansion_of_copied {e : Json} (copied : expansionOf entry = .ok e) :
    SettledExpansion e := by
  obtain ⟨-, rfl⟩ := Expansion.copy_eq_ok_iff.1 copied
  refine ⟨Expansion.pruned_ne_null ?_, Expansion.plain_pruned _⟩
  unfold Json.present?
  cases entry.field? "expansion" with
  | none => nofun
  | some j =>
    cases j with
    | _ => nofun

theorem settledBundle_of_declared {b : Bundle} (formed : BundleEntry entry) (made : BundleFrom entry b) :
    SettledBundle b := by
  obtain ⟨ks, keywords, kept⟩ := made.keywords
  obtain ⟨id, declared, solid⟩ := formed.id
  obtain rfl := Json.str.inj (Option.some.inj (made.id.symm.trans declared))
  exact
    { id := solid
      ne := made.keywords_distinct.1
      solid := fun k member => keywords.solid k ((withoutRepeats_sublist ks).subset (kept ▸ member))
      distinct := made.keywords_distinct.2
      expansion := settledExpansion_of_copied made.expansion }

theorem bundleEntry_of_mem (formed : WellFormed document) :
    ∀ e ∈ listed document "bundles", BundleEntry e := by
  rcases formed.bundles with value | value | ⟨entries, value, list⟩
  · rw [listed_of_absent (.inl value)]
    nofun
  · rw [listed_of_absent (.inr value)]
    nofun
  · rw [listed_of_arr value]
    exact list.each

/-- The registry of an accepted document is settled. -/
theorem settled_of_accepted (accepted : ofDocument document = .ok r) : Settled r := by
  have distinct := ofDocument_nodup accepted
  obtain ⟨d, valid, complete⟩ := ofDocument_eq_ok accepted
  obtain ⟨formed, declares⟩ := wellFormed_of_accepted valid
  obtain ⟨found, bundles⟩ := ofDefinitions?_eq_some_iff.1 complete
  refine ⟨audience_profileFor accepted, fun p member => ?_, fun b member => ?_, distinct⟩
  · obtain ⟨a, -, rfl⟩ := List.mem_map.1 member
    have declared := List.mem_of_find?_eq_some (found a)
    obtain ⟨entry, -, made⟩ := Pointwise.exists_left declares.profiles _ declared
    exact settledExpansion_of_copied made.expansion
  · rw [bundles] at member
    obtain ⟨entry, source, made⟩ := Pointwise.exists_left declares.bundles b member
    exact settledBundle_of_declared (bundleEntry_of_mem formed entry source) made

end Settled

section Written

variable {entry : Json} {p : Profile} {b : Bundle}

/-- A settled expansion is copied as it is. -/
theorem SettledExpansion.copied {e : Json} (settled : SettledExpansion e)
    (value : entry.field? "expansion" = some e) : expansionOf entry = .ok e := by
  have present : entry.present? "expansion" = some e := by
    unfold Json.present?
    rw [value]
    cases e with
    | null => exact absurd rfl settled.present
    | _ => rfl
  rw [expansionOf, present]
  have own := Expansion.pruned_eq_self_iff.2 settled.plain
  exact Expansion.copy_eq_ok_iff.2 ⟨settled.plain.not_blocked, own.symm⟩

theorem fieldText?_eq_some {field t : Text} (value : entry.field? field = some (.str t)) :
    fieldText? entry field = some t := by
  rw [fieldText?, value]

theorem optionalField_of_text {field t : Text} (value : entry.field? field = some (.str t)) :
    OptionalField entry field :=
  .inr (.inr ⟨t, value⟩)

theorem ProfileWritten.makes (written : ProfileWritten entry p)
    (settled : SettledExpansion p.expansion) : ProfileFrom entry p where
  id := written.id
  name := by rw [fieldText?_eq_some written.name, Option.getD_some]
  expansion := settled.copied written.expansion

theorem ProfileWritten.ofJson (p : Profile) : ProfileWritten p.json p := by
  constructor <;>
    simp (disch := decide) only [Profile.json, Json.field?_object_same, Json.field?_object_other]

theorem BundleWritten.ofEntry (settled : SettledBundle b) : BundleWritten b.entry b := by
  have words : withoutRepeats b.keywords = b.keywords := withoutRepeats_eq_self settled.distinct
  constructor <;>
    simp (disch := decide) [Bundle.entry, Json.field?_object_same, Json.field?_object_other]
  exact ⟨b.keywords, rfl, words⟩

/-- Repeats of words that are not blank are not blank either. -/
theorem BundleWritten.exists_keywords (written : BundleWritten entry b) (settled : SettledBundle b) :
    ∃ ks, Keywords entry ks ∧ b.keywords = withoutRepeats ks := by
  obtain ⟨m, ks, match', words, kept⟩ := written.keywords
  refine ⟨ks, ⟨⟨m, match', words⟩, ?_, fun k member => ?_⟩, kept.symm⟩
  · rintro rfl
    exact settled.ne kept.symm
  · obtain ⟨l, stays, same⟩ := exists_mem_withoutRepeats member
    exact Text.trim_ne_nil_of_lower_eq same.symm (settled.solid l (kept ▸ stays))

theorem BundleWritten.makes (written : BundleWritten entry b) (settled : SettledBundle b) :
    BundleFrom entry b where
  id := written.id
  name := by rw [fieldText?_eq_some written.name, Option.getD_some]
  domain := by rw [fieldText?_eq_some written.domain, Option.getD_some]
  task := by rw [fieldText?_eq_some written.task, Option.getD_some]
  keywords := written.exists_keywords settled
  expansion := settled.expansion.copied written.expansion

theorem BundleWritten.formed (written : BundleWritten entry b) (settled : SettledBundle b) :
    BundleEntry entry where
  id := ⟨b.id, written.id, settled.id⟩
  keywords := (written.exists_keywords settled).imp fun _ => And.left
  domain := optionalField_of_text written.domain
  task := optionalField_of_text written.task
  name := optionalField_of_text written.name

end Written

section Accepted

variable {document : Json} {r : Registry} {d : Definitions}

theorem ProfileFrom.unique : Relator.RightUnique ProfileFrom := by
  intro entry p q made made'
  have audience : p.audience = q.audience := idOf_injective (made.id.symm.trans made'.id)
  have id : p.id = q.id := congrArg Audience.profileId audience
  have name : p.name = q.name := by rw [made.name, made'.name, id]
  have expansion := Except.ok.inj (made.expansion.symm.trans made'.expansion)
  cases p
  cases q
  exact congr (congr (congrArg Profile.mk audience) name) expansion

theorem Keywords.unique {entry : Json} {ks ls : List Text} (words : Keywords entry ks)
    (words' : Keywords entry ls) : ks = ls := by
  obtain ⟨m, match', listed⟩ := words.listed
  obtain ⟨m', match'', listed'⟩ := words'.listed
  obtain rfl := Option.some.inj (match'.symm.trans match'')
  have texts := Json.arr.inj (Option.some.inj (listed.symm.trans listed'))
  exact List.map_injective_iff.2 (fun _ _ => Json.str.inj) texts

theorem BundleFrom.unique : Relator.RightUnique BundleFrom := by
  intro entry a b made made'
  have id : a.id = b.id := Json.str.inj (Option.some.inj (made.id.symm.trans made'.id))
  have name : a.name = b.name := by rw [made.name, made'.name, id]
  have domain : a.domain = b.domain := made.domain.trans made'.domain.symm
  have task : a.task = b.task := made.task.trans made'.task.symm
  have keywords : a.keywords = b.keywords := by
    obtain ⟨ks, words, kept⟩ := made.keywords
    obtain ⟨ls, words', kept'⟩ := made'.keywords
    rw [kept, kept', words.unique words']
  have expansion := Except.ok.inj (made.expansion.symm.trans made'.expansion)
  cases a
  cases b
  simp_all

/-- A document declares one list of definitions at most. -/
theorem Declares.unique {d' : Definitions} (declares : Declares document d)
    (declares' : Declares document d') : d = d' := by
  have profiles := ProfileFrom.unique.forall₂ declares.profiles declares'.profiles
  have bundles := BundleFrom.unique.forall₂ declares.bundles declares'.bundles
  cases d
  cases d'
  exact congr (congrArg Definitions.mk profiles) bundles

/-- Every entry of a document that declares definitions can be copied. -/
theorem Declares.not_clashes (declares : Declares document d) : ¬Clashes document := by
  have copied : ∀ {entry : Json} {e : Json}, expansionOf entry = .ok e → ¬Uncopyable entry := by
    intro entry e copied uncopyable
    obtain ⟨fault, failed⟩ := expansionOf_eq_error_iff.2 uncopyable
    exact nomatch copied.symm.trans failed
  rintro (⟨entry, ⟨before, after, k, split, -⟩, uncopyable⟩ |
    ⟨entry, ⟨before, after, k, split, -⟩, uncopyable⟩)
  · have member : entry ∈ listed document "profiles" := split ▸ List.mem_append_cons_self
    obtain ⟨p, -, made⟩ := Pointwise.exists_left declares.profiles.flip entry member
    exact copied made.expansion uncopyable
  · have member : entry ∈ listed document "bundles" := split ▸ List.mem_append_cons_self
    obtain ⟨b, -, made⟩ := Pointwise.exists_left declares.bundles.flip entry member
    exact copied made.expansion uncopyable

/-- A well-formed document is accepted as what it declares. -/
theorem ofDocument_of_declares (formed : WellFormed document) (declares : Declares document d)
    (complete : ofDefinitions? d = some r) : ofDocument document = .ok r := by
  have clear := mt validate_eq_error_iff.1 declares.not_clashes
  have valid : validate document = .ok (.ok d) := by
    cases result : validate document with
    | error fault => exact absurd ⟨fault, result⟩ clear
    | ok checked =>
      cases checked with
      | error defects => exact absurd formed (not_wellFormed_of_refused result).2
      | ok d' => rw [declares.unique (wellFormed_of_accepted result).2]
  rw [ofDocument, valid]
  simp only [ofDefinitions, complete]
  rfl

end Accepted

section Restates

variable {document : Json} {r : Registry}

/-- A settled registry restates itself. -/
theorem Settled.restates (settled : Settled r) : Restates r r.restated := by
  have profiles : r.restated.field? "profiles" = some (.arr (r.profiles.map Profile.json)) := by
    simp (disch := decide) only [restated, Json.field?_object_same]
  have bundles : r.restated.field? "bundles" = some (.arr (r.bundles.map Bundle.entry)) := by
    simp (disch := decide) only [restated, Json.field?_object_same, Json.field?_object_other]
  refine ⟨⟨_, r.profiles, profiles, ?_, .refl _⟩, ⟨_, bundles, ?_⟩⟩
  · rw [List.forall₂_map_left_iff, List.forall₂_same]
    exact fun p _ => .ofJson p
  · rw [List.forall₂_map_left_iff, List.forall₂_same]
    exact fun b member => .ofEntry (settled.bundles b member)

/-- The profiles of a settled registry are those of the audiences. -/
theorem Settled.map_audience (settled : Settled r) : r.profiles.map Profile.audience = Audience.all := by
  rw [Registry.profiles, List.map_map]
  simp [Function.comp_def, settled.audience]

theorem Settled.profileList (settled : Settled r) {entries : List Json} {ps : List Profile}
    (written : List.Forall₂ ProfileWritten entries ps) (perm : ps.Perm r.profiles) :
    ProfileList entries where
  ids := by
    have own : (r.profiles.map fun p => some (Json.str p.id)) =
        Audience.all.map fun a => some (.str a.profileId) := by
      rw [← settled.map_audience, List.map_map]
      rfl
    rw [Pointwise.map_eq_map written fun _ _ entry => entry.id, ← own]
    exact perm.map _
  names := by
    intro e member
    obtain ⟨p, -, entry⟩ := Pointwise.exists_left written.flip e member
    exact optionalField_of_text entry.name

theorem Settled.bundleList (settled : Settled r) {entries : List Json}
    (written : List.Forall₂ BundleWritten entries r.bundles) : BundleList entries where
  each := by
    intro e member
    obtain ⟨b, registered, entry⟩ := Pointwise.exists_left written.flip e member
    exact entry.formed (settled.bundles b registered)
  distinct := by
    have own : (r.bundles.map fun b => some (Json.str b.id)) =
        (r.bundles.map Bundle.id).map fun id => some (.str id) := by
      rw [List.map_map]
      rfl
    rw [Pointwise.map_eq_map written fun _ _ entry => entry.id, own]
    exact settled.distinct.map fun _ _ same => Json.str.inj (Option.some.inj same)

/-- Permuted profiles make up the same registry. -/
theorem Settled.complete (settled : Settled r) {ps : List Profile} (perm : ps.Perm r.profiles) :
    ofDefinitions? ⟨ps, r.bundles⟩ = some r := by
  have distinct : (ps.map Profile.audience).Nodup := by
    rw [(perm.map Profile.audience).nodup_iff, settled.map_audience]
    decide
  refine ofDefinitions?_eq_some_iff.2 ⟨fun a => ?_, rfl⟩
  have member : r.profileFor a ∈ ps := perm.mem_iff.2 (List.mem_map_of_mem (mem_audiences a))
  have found := find?_key_eq_some distinct member
  rwa [settled.audience] at found

/-- A document that restates a settled registry is accepted as that registry. -/
theorem Restates.accepted (restates : Restates r document) (settled : Settled r) :
    ofDocument document = .ok r := by
  obtain ⟨entries, ps, profiles, written, perm⟩ := restates.profiles
  obtain ⟨entries', bundles, written'⟩ := restates.bundles
  have formed : WellFormed document := by
    refine ⟨?_, ⟨entries, profiles, settled.profileList written perm⟩,
      .inr (.inr ⟨entries', bundles, settled.bundleList written'⟩)⟩
    refine Bool.of_not_eq_false fun object => ?_
    rw [field?_of_not_object object] at profiles
    cases profiles
  have expansions : ∀ p ∈ ps, SettledExpansion p.expansion := fun p member =>
    settled.profiles p (perm.mem_iff.1 member)
  have declares : Declares document ⟨ps, r.bundles⟩ := by
    refine ⟨?_, ?_, fun b member => ⟨(settled.bundles b member).ne, (settled.bundles b member).distinct⟩⟩
    · rw [listed_of_arr profiles]
      exact Pointwise.imp_of_mem written fun p member _ entry => entry.makes (expansions p member)
    · rw [listed_of_arr bundles]
      exact Pointwise.imp_of_mem written' fun b member _ entry => entry.makes (settled.bundles b member)
  exact ofDocument_of_declares formed declares (settled.complete perm)

end Restates

end Registry

end RequestCompiler
