import Mathlib.Data.List.Nodup
import Mathlib.Data.List.Perm.Basic
import RequestCompiler.Proofs.Pointwise
import RequestCompiler.Proofs.Registry.Entries

/-!
# Well-formed documents

`WellFormed` says what a registry document has to be, and `Declares` which definitions it then
stands for, both without the check. A document that can be checked is accepted exactly if it is
well-formed, and as what it declares (`validate_ok_iff_wellFormed`).
-/

namespace RequestCompiler.Registry

/-- The entries that a document lists under a key. -/
def listed (document : Json) (key : Text) : List Json :=
  match document.field? key with
  | some (.arr entries) => entries
  | _ => []

/-- The entries are profile entries, one for each audience. -/
structure ProfileList (entries : List Json) : Prop where
  ids : (entries.map fun e => e.field? "id").Perm (Audience.all.map fun a => some (.str a.profileId))
  names : ∀ e ∈ entries, OptionalField e "name"

/-- The entry has an id and words to be found by, and no field of a wrong kind. -/
structure BundleEntry (entry : Json) : Prop where
  id : ∃ id : Text, entry.field? "id" = some (.str id) ∧ id.trim ≠ []
  keywords : ∃ ks, Keywords entry ks
  domain : OptionalField entry "domain"
  task : OptionalField entry "task"
  name : OptionalField entry "name"

/-- The entries are bundle entries, no two of them with the same id. -/
structure BundleList (entries : List Json) : Prop where
  each : ∀ e ∈ entries, BundleEntry e
  distinct : (entries.map fun e => e.field? "id").Nodup

/-- The document is an object that lists the profiles and, unless it leaves them out, bundles. -/
structure WellFormed (document : Json) : Prop where
  object : document.isObject = true
  profiles : ∃ entries, document.field? "profiles" = some (.arr entries) ∧ ProfileList entries
  bundles : document.field? "bundles" = none ∨ document.field? "bundles" = some .null ∨
    ∃ entries, document.field? "bundles" = some (.arr entries) ∧ BundleList entries

/-- The definitions are those of the document's entries, in the order of the entries. -/
structure Declares (document : Json) (d : Definitions) : Prop where
  profiles : List.Forall₂ ProfileFrom (listed document "profiles") d.profiles
  bundles : List.Forall₂ BundleFrom (listed document "bundles") d.bundles
  keywords : ∀ b ∈ d.bundles, b.keywords ≠ [] ∧ (b.keywords.map Text.lower).Nodup

section Keys

variable {κ : Type} {key? : Json → Option κ} {entries : List Json}

theorem exists_keys (each : ∀ e ∈ entries, ∃ k, key? e = some k) :
    ∃ ks : List κ, entries.map key? = ks.map some := by
  induction entries with
  | nil => exact ⟨[], rfl⟩
  | cons e entries ih =>
    obtain ⟨k, key⟩ := each e List.mem_cons_self
    obtain ⟨ks, keys⟩ := ih fun f member => each f (List.mem_cons_of_mem _ member)
    exact ⟨k :: ks, by rw [List.map_cons, List.map_cons, key, keys]⟩

/-- The keys of entries tell their ids. -/
theorem ids_of_keys {text : κ → Text} {ks : List κ}
    (own : ∀ e k, key? e = some k → e.field? "id" = some (.str (text k)))
    (keys : entries.map key? = ks.map some) :
    (entries.map fun e => e.field? "id") = ks.map fun k => some (.str (text k)) := by
  induction entries generalizing ks with
  | nil => rw [List.map_eq_nil_iff.1 keys.symm, List.map_nil, List.map_nil]
  | cons e entries ih =>
    obtain ⟨k, ks, rfl, key, keys⟩ := List.map_eq_cons_iff.1 keys.symm
    rw [List.map_cons, List.map_cons, own e k key.symm, ih keys.symm]

theorem filterMap_keys {ks : List κ} (keys : entries.map key? = ks.map some) :
    entries.filterMap key? = ks := by
  have found : (entries.map key?).filterMap (fun k => k) = entries.filterMap key? := by
    rw [List.filterMap_map]
    rfl
  rw [← found, keys, List.filterMap_map]
  exact List.filterMap_some

end Keys

section Lists

variable {entries : List Json}

/-- Audiences are told apart by the ids of their profiles. -/
theorem idOf_injective : Function.Injective fun a : Audience => some (Json.str a.profileId) := by
  intro a b same
  have recognized : Audience.ofProfileId? a.profileId = some a := ofProfileId?_eq_some_iff.2 rfl
  rw [Json.str.inj (Option.some.inj same), ofProfileId?_eq_some_iff.2 rfl] at recognized
  exact (Option.some.inj recognized).symm

theorem mem_audiences (a : Audience) : a ∈ Audience.all := by
  cases a <;> decide

theorem missingProfiles_eq_nil_iff :
    missingProfiles entries = [] ↔ ∀ a, a ∈ entries.filterMap declaredAudience? := by
  simp [missingProfiles, mem_audiences]

/-- Clean profile entries that miss no audience are those of all audiences. -/
theorem profileList_iff :
    ProfileList entries ↔ Clean profileEntries [] entries ∧ missingProfiles entries = [] := by
  have own : ∀ e a, declaredAudience? e = some a → e.field? "id" = some (.str a.profileId) :=
    fun e a => declaredAudience?_eq_some_iff.1
  have distinct : Audience.all.Nodup := by decide
  rw [missingProfiles_eq_nil_iff]
  constructor
  · rintro ⟨ids, names⟩
    obtain ⟨ks, keys⟩ : ∃ ks : List Audience, entries.map declaredAudience? = ks.map some := by
      refine exists_keys fun e member => ?_
      have id := ids.mem_iff.1 (List.mem_map_of_mem member)
      obtain ⟨a, -, same⟩ := List.mem_map.1 id
      exact ⟨a, declaredAudience?_eq_some_iff.2 same.symm⟩
    rw [ids_of_keys own keys, List.map_perm_map_iff idOf_injective] at ids
    rw [filterMap_keys keys]
    refine ⟨⟨fun e member => ⟨trivial, names e member⟩, ks, keys, ids.nodup_iff.2 distinct, nofun⟩, ?_⟩
    exact fun a => ids.mem_iff.2 (mem_audiences a)
  · rintro ⟨⟨each, ks, keys, nodup, -⟩, all⟩
    have keys : entries.map declaredAudience? = ks.map some := keys
    rw [filterMap_keys keys] at all
    have same : ks.Perm Audience.all :=
      (List.perm_ext_iff_of_nodup nodup distinct).2 fun a => iff_of_true (all a) (mem_audiences a)
    refine ⟨?_, fun e member => (each e member).2⟩
    rw [ids_of_keys own keys]
    exact same.map _

theorem bundleList_iff : BundleList entries ↔ Clean bundleEntries [] entries := by
  have own : ∀ e id, declaredBundle? e = some id → e.field? "id" = some (.str id) :=
    fun e id key => (declaredBundle?_eq_some_iff.1 key).1
  have injective : Function.Injective fun id : Text => some (Json.str id) := fun _ _ same =>
    Json.str.inj (Option.some.inj same)
  constructor
  · rintro ⟨each, distinct⟩
    obtain ⟨ks, keys⟩ : ∃ ks : List Text, entries.map declaredBundle? = ks.map some := by
      refine exists_keys fun e member => ?_
      obtain ⟨id, declared⟩ := (each e member).id
      exact ⟨id, declaredBundle?_eq_some_iff.2 declared⟩
    rw [ids_of_keys own keys, List.nodup_map_iff injective] at distinct
    refine ⟨fun e member => ?_, ks, keys, distinct, nofun⟩
    have entry := each e member
    exact ⟨entry.keywords, entry.domain, entry.task, entry.name⟩
  · rintro ⟨each, ks, keys, nodup, -⟩
    have keys : entries.map declaredBundle? = ks.map some := keys
    constructor
    · intro e member
      obtain ⟨keywords, domain, task, name⟩ := each e member
      obtain ⟨id, -, key⟩ := List.mem_map.1 (keys ▸ List.mem_map_of_mem member)
      exact ⟨⟨id, declaredBundle?_eq_some_iff.1 key.symm⟩, keywords, domain, task, name⟩
    · rw [ids_of_keys own keys]
      exact nodup.map injective

end Lists

section Document

variable {document : Json}

/-- The profiles of a document, once checked, are free of defects exactly if they form a profile
list, and then each is that of its entry. -/
theorem validateProfiles_eq_ok {c : Checked (List Profile)}
    (checked : validateProfiles document = .ok c) :
    (c.defects = [] ↔
        ∃ entries, document.field? "profiles" = some (.arr entries) ∧ ProfileList entries) ∧
      (c.defects = [] → List.Forall₂ ProfileFrom (listed document "profiles") c.accepted) := by
  have absent : missingProfiles [] ≠ [] := by decide
  unfold validateProfiles Json.present? at checked
  unfold listed
  cases value : document.field? "profiles" with
  | none =>
    rw [value] at checked
    obtain rfl := Except.ok.inj checked
    exact ⟨iff_of_false absent nofun, fun clean => absurd clean absent⟩
  | some j =>
    rw [value] at checked
    cases j with
    | arr entries =>
      obtain ⟨c', inner, rfl⟩ := map_eq_ok_iff.1 checked
      rw [checkProfiles_eq] at inner
      obtain ⟨clean, made⟩ := checkEntries_eq_ok (K := profileEntries) checkProfile_checks inner
      have same : ∀ es, some (Json.arr entries) = some (Json.arr es) ↔ entries = es := by simp
      simp only [List.append_eq_nil_iff, clean, ← profileList_iff, same, exists_eq_left']
      exact ⟨trivial, fun list => made (clean.2 (profileList_iff.1 list).1)⟩
    | null =>
      obtain rfl := Except.ok.inj checked
      exact ⟨iff_of_false absent nofun, fun clean => absurd clean absent⟩
    | _ =>
      obtain rfl := Except.ok.inj checked
      exact ⟨iff_of_false (List.cons_ne_nil _ _) nofun, nofun⟩

theorem validateBundles_eq_ok {c : Checked (List Bundle)}
    (checked : validateBundles document = .ok c) :
    (c.defects = [] ↔ document.field? "bundles" = none ∨ document.field? "bundles" = some .null ∨
        ∃ entries, document.field? "bundles" = some (.arr entries) ∧ BundleList entries) ∧
      (c.defects = [] → List.Forall₂ BundleFrom (listed document "bundles") c.accepted) := by
  unfold validateBundles Json.present? at checked
  unfold listed
  cases value : document.field? "bundles" with
  | none =>
    rw [value] at checked
    obtain rfl := Except.ok.inj checked
    exact ⟨iff_of_true rfl (.inl rfl), fun _ => .nil⟩
  | some j =>
    rw [value] at checked
    cases j with
    | arr entries =>
      simp only [checkBundles_eq] at checked
      obtain ⟨clean, made⟩ := checkEntries_eq_ok (K := bundleEntries) checkBundle_checks checked
      have same : ∀ es, some (Json.arr entries) = some (Json.arr es) ↔ entries = es := by simp
      simp only [clean, ← bundleList_iff, same, exists_eq_left', reduceCtorEq, Option.some.injEq,
        false_or]
      exact ⟨trivial, fun list => made (clean.2 (bundleList_iff.1 list))⟩
    | null =>
      obtain rfl := Except.ok.inj checked
      exact ⟨iff_of_true rfl (.inr (.inl rfl)), fun _ => .nil⟩
    | _ =>
      obtain rfl := Except.ok.inj checked
      exact ⟨iff_of_false (List.cons_ne_nil _ _) (by simp), nofun⟩

/-- Every bundle of an entry has words, no two of them equal in lower case. -/
theorem BundleFrom.keywords_distinct {entry : Json} {b : Bundle} (made : BundleFrom entry b) :
    b.keywords ≠ [] ∧ (b.keywords.map Text.lower).Nodup := by
  obtain ⟨ks, keywords, kept⟩ := made.keywords
  rw [kept]
  exact ⟨withoutRepeats_ne_nil keywords.ne, nodup_lower_withoutRepeats ks⟩

/-- An accepted document has been checked without defects, and its bundles are the accepted
ones. -/
theorem validate_eq_ok {d : Definitions}
    (accepted : validate document = .ok (.ok d)) :
    ∃ profiles bundles, validateProfiles document = .ok profiles ∧
      validateBundles document = .ok bundles ∧ profiles.defects = [] ∧ bundles.defects = [] ∧
      d = ⟨profiles.accepted, bundles.accepted⟩ := by
  unfold validate at accepted
  split at accepted
  · cases accepted
  · obtain ⟨profiles, hp, accepted⟩ := bind_eq_ok_iff.1 accepted
    obtain ⟨bundles, hb, answer⟩ := bind_eq_ok_iff.1 accepted
    have answer := Except.ok.inj answer
    split at answer
    · rename_i clean
      rw [List.isEmpty_iff, List.append_eq_nil_iff] at clean
      exact ⟨profiles, bundles, hp, hb, clean.1, clean.2, (Except.ok.inj answer).symm⟩
    · cases answer

/-- An accepted document is well-formed and declares its definitions. -/
theorem wellFormed_of_accepted {d : Definitions} (accepted : validate document = .ok (.ok d)) :
    WellFormed document ∧ Declares document d := by
  obtain ⟨profiles, bundles, hp, hb, noProfileDefect, noBundleDefect, rfl⟩ := validate_eq_ok accepted
  obtain ⟨profilesFormed, profilesMade⟩ := validateProfiles_eq_ok hp
  obtain ⟨bundlesFormed, bundlesMade⟩ := validateBundles_eq_ok hb
  have formed := profilesFormed.1 noProfileDefect
  have made := bundlesMade noBundleDefect
  refine ⟨⟨?_, formed, bundlesFormed.1 noBundleDefect⟩, profilesMade noProfileDefect, made, ?_⟩
  · obtain ⟨entries, profiles, -⟩ := formed
    refine Bool.of_not_eq_false fun object => ?_
    rw [field?_of_not_object object] at profiles
    cases profiles
  · intro b member
    obtain ⟨entry, -, own⟩ := Pointwise.exists_left made b member
    exact own.keywords_distinct

/-- A refused document has defects and is not well-formed. -/
theorem not_wellFormed_of_refused {defects : List Defect}
    (refused : validate document = .ok (.error defects)) : defects ≠ [] ∧ ¬WellFormed document := by
  unfold validate at refused
  cases object : document.isObject with
  | false =>
    rw [object] at refused
    cases refused
    refine ⟨List.cons_ne_nil _ _, fun formed => ?_⟩
    exact absurd formed.object (by simp [object])
  | true =>
    rw [object] at refused
    obtain ⟨profiles, hp, refused⟩ := bind_eq_ok_iff.1 refused
    obtain ⟨bundles, hb, answer⟩ := bind_eq_ok_iff.1 refused
    have answer := Except.ok.inj answer
    split at answer
    · cases answer
    · rename_i defective
      cases answer
      rw [List.isEmpty_iff] at defective
      refine ⟨defective, fun formed => defective ?_⟩
      rw [(validateProfiles_eq_ok hp).1.2 formed.profiles,
        (validateBundles_eq_ok hb).1.2 formed.bundles]
      rfl

/-- Once it is checked, a document is accepted exactly if it is well-formed, and as what it
declares. -/
theorem validate_ok_iff_wellFormed {result : Except (List Defect) Definitions}
    (checked : validate document = .ok result) :
    ((∃ d, result = .ok d) ↔ WellFormed document) ∧ ∀ d, result = .ok d → Declares document d := by
  cases result with
  | error defects => exact ⟨iff_of_false nofun (not_wellFormed_of_refused checked).2, nofun⟩
  | ok d =>
    obtain ⟨formed, declares⟩ := wellFormed_of_accepted checked
    refine ⟨iff_of_true ⟨d, rfl⟩ formed, ?_⟩
    rintro _ ⟨rfl⟩
    exact declares

/-- A document of the three profiles and one bundle with this match and this expansion. -/
def sampleDocument (keywords : List Text) (expansion : Json) : Json :=
  .object [("profiles", .arr (Audience.all.map fun a => .object [("id", .str a.profileId)])),
    ("bundles", .arr [.object [("id", .str "review"),
      ("match", .object [("keywords_any", .texts keywords)]), ("expansion", expansion)]])]

/-- The registry that it declares. -/
def sample (keywords : List Text) (expansion : Json) : Registry :=
  ⟨⟨.dev, Audience.dev.profileId, .arr []⟩, ⟨.audit, Audience.audit.profileId, .arr []⟩,
    ⟨.exec, Audience.exec.profileId, .arr []⟩, [⟨"review", "review", [], [], keywords, expansion⟩]⟩

/-- Words in two spellings are kept in the first one. -/
theorem validate_ok_iff_wellFormed_spellings :
    ∃ d, validate (sampleDocument ["Check", "review", "check"] (.arr [])) = .ok (.ok d) ∧
      WellFormed (sampleDocument ["Check", "review", "check"] (.arr [])) ∧
      Declares (sampleDocument ["Check", "review", "check"] (.arr [])) d ∧
      d.bundles = (sample ["Check", "review"] (.arr [])).bundles := by
  have checked : validate (sampleDocument ["Check", "review", "check"] (.arr [])) =
      .ok (.ok ⟨(sample ["Check", "review"] (.arr [])).profiles,
        (sample ["Check", "review"] (.arr [])).bundles⟩) := rfl
  obtain ⟨formed, declares⟩ := validate_ok_iff_wellFormed checked
  exact ⟨_, checked, formed.1 ⟨_, rfl⟩, declares _ rfl, rfl⟩

end Document

end RequestCompiler.Registry
