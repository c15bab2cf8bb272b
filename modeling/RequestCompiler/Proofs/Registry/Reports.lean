import RequestCompiler.Proofs.Registry.Gate

/-!
# What is reported for an entry

A document is refused with the defects of its entries, one entry after the other, so what is reported for an entry
is what the check finds when it comes to this entry. An entry with a key that no earlier entry has is checked in all
its fields; of any other entry nothing but its key is reported, whatever else is wrong with it
(`EntryCheck.Lawful.reported_iff`). One pass is therefore `Thorough` exactly if every entry with a faulty field has
a key of its own and no copy fails (`thorough_iff`).
-/

namespace RequestCompiler

/-- What a defect is about. -/
inductive Concern
  | document
  /-- The entry is no object, or its id is not one that it can have. -/
  | key
  | keywords
  | field (name : Text)
deriving DecidableEq

namespace Defect

def concern : Defect → Concern
  | notMapping | profilesNotList | profileMissing _ | bundlesNotList => .document
  | profileNotMapping _ | profileIdMissing _ | profileUnrecognized _ _ | profileRepeated _ _
  | bundleNotMapping _ | bundleIdMissing _ | bundleRepeated _ _ => .key
  | profileNameNotText _ => .field "name"
  | bundleFieldNotText field _ => .field field
  | keywordsMissing _ | keywordBlank _ _ => .keywords

/-- A defect of a field is reported by the name of the field. -/
theorem message_of_concern_field {d : Defect} {name : Text} (field : d.concern = .field name) :
    d.message = Text.ofString "Field \"" ++ name ++ Text.ofString "\" must be a string" := by
  cases d with
  | profileNameNotText i =>
    obtain rfl := Concern.field.inj field
    change Text.ofString "Field \"name\" must be a string" = _
    decide
  | bundleFieldNotText f id =>
    obtain rfl := Concern.field.inj field
    rfl
  | _ => cases field

end Defect

namespace Registry

/-- The check of one kind of entries, and what it should report of an entry that is an object. -/
structure EntryCheck (κ α : Type) where
  /-- Where a document lists the entries. -/
  place : Text
  /-- What no two entries of a list share. -/
  key? : Json → Option κ
  check : List κ → Nat → Json → Except Expansion.CopyFault (Checked (Option α))
  /-- What is wrong with an entry besides its key. -/
  Faulty : Json → Concern → Prop

namespace EntryCheck

variable {κ α : Type} (C : EntryCheck κ α) (document : Json) (before : List Json) (entry : Json)

/-- The document is refused with the defect, and the check found it at this entry behind the others. -/
def Reported (d : Defect) : Prop :=
  (∃ defects, validate document = .ok (.error defects) ∧ d ∈ defects) ∧
    ∃ own, C.check (before.filterMap C.key?) before.length entry = .ok own ∧ d ∈ own.defects

/-- The entry has a key, which no entry before it has. -/
def Keyed : Prop := ∃ k, C.key? entry = some k ∧ ∀ e ∈ before, C.key? e ≠ some k

/-- Every entry of the document has what the predicate says of its faults. -/
def ForFaults (P : List Json → Json → Concern → Prop) : Prop :=
  ∀ before entry after c, listed document C.place = before ++ entry :: after → entry.isObject = true →
    C.Faulty entry c → P before entry c

/-- All that is wrong with an entry is reported for this entry. -/
def Told : Prop :=
  C.ForFaults document fun before entry c => ∃ d, C.Reported document before entry d ∧ d.concern = c

/-- An entry with which something is wrong has a key of its own, and no copy of the document fails. -/
def Open : Prop := C.ForFaults document fun before entry _ => C.Keyed before entry ∧ ¬Clashes document

/-- What makes a check report the faults of entries with keys of their own, and only keys of the others. -/
structure Lawful : Prop where
  /-- The key is no fault by this count. -/
  apart : ∀ {entry c}, C.Faulty entry c → c ≠ .key
  complete : ∀ {seen index entry own k c}, C.check seen index entry = .ok own → C.key? entry = some k →
    k ∉ seen → C.Faulty entry c → ∃ d ∈ own.defects, d.concern = c
  barred : ∀ {seen index entry own}, C.check seen index entry = .ok own →
    (∀ k, C.key? entry = some k → k ∈ seen) → ∀ d ∈ own.defects, d.concern = .key
  /-- The check comes to each entry, and what it finds is among the defects of the document. -/
  reaches : ∀ {document result before entry after}, validate document = .ok result →
    listed document C.place = before ++ entry :: after →
      ∃ own, C.check (before.filterMap C.key?) before.length entry = .ok own ∧
        ∀ d ∈ own.defects, ∃ defects, result = .error defects ∧ d ∈ defects

variable {C document before entry}

theorem keyed_iff : C.Keyed before entry ↔ ∃ k, C.key? entry = some k ∧ k ∉ before.filterMap C.key? := by
  simp [Keyed]

/-- A fault is reported exactly if the entry has a key of its own and the document can be copied. -/
theorem Lawful.reported_iff (lawful : C.Lawful) {after : List Json} {c : Concern}
    (split : listed document C.place = before ++ entry :: after) (fault : C.Faulty entry c) :
    (∃ d, C.Reported document before entry d ∧ d.concern = c) ↔
      C.Keyed before entry ∧ ¬Clashes document := by
  rw [← validate_eq_error_iff, keyed_iff]
  constructor
  · rintro ⟨d, ⟨⟨defects, refused, -⟩, own, checked, found⟩, rfl⟩
    constructor
    · by_contra keyless
      simp only [not_exists, not_and, not_not] at keyless
      exact lawful.apart fault (lawful.barred checked keyless d found)
    · rintro ⟨e, failed⟩
      rw [refused] at failed
      cases failed
  · rintro ⟨⟨k, key, fresh⟩, copied⟩
    cases outcome : validate document with
    | error e => exact absurd ⟨e, outcome⟩ copied
    | ok result =>
      obtain ⟨own, checked, reported⟩ := lawful.reaches outcome split
      obtain ⟨d, found, rfl⟩ := lawful.complete checked key fresh fault
      obtain ⟨defects, rfl, member⟩ := reported d found
      exact ⟨d, ⟨⟨defects, outcome, member⟩, own, checked, found⟩, rfl⟩

theorem Lawful.told_iff_open (lawful : C.Lawful) : C.Told document ↔ C.Open document := by
  refine forall_congr' fun before => forall_congr' fun entry => forall_congr' fun after =>
    forall_congr' fun c => ?_
  refine imp_congr_right fun split => imp_congr_right fun _ => imp_congr_right fun fault => ?_
  exact lawful.reported_iff split fault

end EntryCheck

section Entries

variable {κ α : Type} {check : List κ → Nat → Json → Except Expansion.CopyFault (Checked (Option α))}
  {key? : Json → Option κ}

/-- Once a list is checked, each entry was checked behind those before it, and its defects are kept. -/
theorem exists_own_of_checkEntries {seen : List κ} {index : Nat} {before after : List Json} {entry : Json}
    {c : Checked (List α)}
    (checked : checkEntries check key? seen index (before ++ entry :: after) = .ok c) :
    ∃ own, check (seen ++ before.filterMap key?) (index + before.length) entry = .ok own ∧
      ∀ d ∈ own.defects, d ∈ c.defects := by
  induction before generalizing seen index c with
  | nil =>
    rw [List.nil_append, checkEntries] at checked
    obtain ⟨own, first, checked⟩ := bind_eq_ok_iff.1 checked
    obtain ⟨rest, -, answer⟩ := bind_eq_ok_iff.1 checked
    obtain rfl := Except.ok.inj answer
    exact ⟨own, by simpa using first, fun d found => List.mem_append_left _ found⟩
  | cons e before ih =>
    rw [List.cons_append, checkEntries] at checked
    obtain ⟨first, -, checked⟩ := bind_eq_ok_iff.1 checked
    obtain ⟨rest, later, answer⟩ := bind_eq_ok_iff.1 checked
    obtain rfl := Except.ok.inj answer
    obtain ⟨own, found, kept⟩ := ih later
    refine ⟨own, ?_, fun d member => List.mem_append_right _ (kept d member)⟩
    have keys : seen ++ (e :: before).filterMap key? =
        seen ++ (key? e).toList ++ before.filterMap key? := by
      cases key : key? e <;> simp [key]
    have position : index + (e :: before).length = index + 1 + before.length := by
      rw [List.length_cons]
      omega
    rw [keys, position]
    exact found

end Entries

section Document

variable {document : Json} {result : Except (List Defect) Definitions}

/-- Whatever the two lists of a document are found to have is reported. -/
theorem exists_lists_of_validate (object : document.isObject = true)
    (validated : validate document = .ok result) : ∃ profiles bundles,
      validateProfiles document = .ok profiles ∧ validateBundles document = .ok bundles ∧
        ∀ d ∈ profiles.defects ++ bundles.defects, ∃ defects, result = .error defects ∧ d ∈ defects := by
  rw [validate, if_neg (by simp [object])] at validated
  obtain ⟨profiles, hp, validated⟩ := bind_eq_ok_iff.1 validated
  obtain ⟨bundles, hb, answer⟩ := bind_eq_ok_iff.1 validated
  refine ⟨profiles, bundles, hp, hb, fun d member => ?_⟩
  have some : ¬(profiles.defects ++ bundles.defects).isEmpty = true := by
    rw [List.isEmpty_iff]
    exact List.ne_nil_of_mem member
  have answer := Except.ok.inj answer
  rw [if_neg some] at answer
  exact ⟨_, answer.symm, member⟩

/-- A document that lists entries is an object. -/
theorem isObject_of_listed {key : Text} {entry : Json} (member : entry ∈ listed document key) :
    document.isObject = true := by
  by_contra object
  rw [listed_of_not_object (by simpa using object)] at member
  cases member

theorem present?_of_listed {key : Text} {entry : Json} (member : entry ∈ listed document key) :
    document.present? key = some (.arr (listed document key)) := by
  unfold listed at member ⊢
  unfold Json.present?
  split at member
  · rename_i value
    rw [value]
  · cases member

end Document

/-- A field of a wrong kind is reported. -/
theorem mem_defects_optionalText {entry : Json} {field : Text} (defect : Defect)
    (wrong : ¬OptionalField entry field) : defect ∈ (optionalText entry field defect).defects := by
  have some : (optionalText entry field defect).defects ≠ [] := mt defects_optionalText.1 wrong
  unfold optionalText at some ⊢
  split at some
  · exact absurd rfl some
  · exact absurd rfl some
  · exact List.mem_singleton_self _

section Profiles

variable {seen : List Audience} {index : Nat} {entry : Json} {own : Checked (Option Profile)}

/-- What can be wrong with a profile entry besides its id. -/
inductive ProfileFault (entry : Json) : Concern → Prop
  | name (wrong : ¬OptionalField entry "name") : ProfileFault entry (.field "name")

def profileCheck : EntryCheck Audience Profile where
  place := "profiles"
  key? := declaredAudience?
  check := checkProfile
  Faulty := ProfileFault

/-- The name of an entry is checked if its audience is its own. -/
theorem defects_checkProfile {a : Audience} (checked : checkProfile seen index entry = .ok own)
    (key : declaredAudience? entry = some a) (fresh : a ∉ seen) :
    own.defects = (optionalText entry "name" (.profileNameNotText index)).defects := by
  unfold declaredAudience? at key
  split at key
  · rename_i object
    obtain ⟨id, text, recognized⟩ := Option.bind_eq_some_iff.1 key
    have unseen : ¬seen.contains a = true := by simpa using fresh
    simp only [checkProfile, object, text, recognized, unseen, Bool.not_true, Bool.false_eq_true,
      if_false] at checked
    obtain ⟨e, -, rfl⟩ := map_eq_ok_iff.1 checked
    rfl
  · cases key

/-- Nothing else is reported of an entry whose audience is missing or not its own. -/
theorem concern_checkProfile (checked : checkProfile seen index entry = .ok own)
    (stale : ∀ a, declaredAudience? entry = some a → a ∈ seen) :
    ∀ d ∈ own.defects, d.concern = .key := by
  unfold declaredAudience? at stale
  unfold checkProfile at checked
  split at checked
  · obtain rfl := Except.ok.inj checked
    exact List.forall_mem_singleton.2 rfl
  · rename_i object
    split at checked
    · obtain rfl := Except.ok.inj checked
      exact List.forall_mem_singleton.2 rfl
    · rename_i id text
      split at checked
      · obtain rfl := Except.ok.inj checked
        exact List.forall_mem_singleton.2 rfl
      · rename_i a recognized
        have repeated : seen.contains a = true := by
          rw [List.contains_iff_mem]
          exact stale a (by simpa [text, recognized] using object)
        rw [if_pos repeated] at checked
        obtain rfl := Except.ok.inj checked
        exact List.forall_mem_singleton.2 rfl

theorem lawful_profileCheck : profileCheck.Lawful where
  apart := by
    rintro entry c ⟨-⟩
    exact nofun
  complete := by
    intro seen index entry own a c checked key fresh fault
    rw [defects_checkProfile checked key fresh]
    cases fault with
    | name wrong => exact ⟨_, mem_defects_optionalText _ wrong, rfl⟩
  barred := concern_checkProfile
  reaches := by
    intro document result before entry after validated split
    have split : listed document "profiles" = before ++ entry :: after := split
    have member : entry ∈ listed document "profiles" := by simp [split]
    obtain ⟨profiles, bundles, checked, -, reported⟩ :=
      exists_lists_of_validate (isObject_of_listed member) validated
    rw [validateProfiles, present?_of_listed member] at checked
    simp only [split, checkProfiles_eq] at checked
    obtain ⟨c, listChecked, rfl⟩ := map_eq_ok_iff.1 checked
    obtain ⟨own, found, kept⟩ := exists_own_of_checkEntries listChecked
    rw [List.nil_append, Nat.zero_add] at found
    refine ⟨own, found, fun d member => reported d ?_⟩
    exact List.mem_append_left _ (List.mem_append_left _ (kept d member))

end Profiles

section Bundles

variable {seen : List Text} {index : Nat} {entry : Json} {own : Checked (Option Bundle)}

/-- What can be wrong with a bundle entry besides its id. -/
inductive BundleFault (entry : Json) : Concern → Prop
  | keywords (unusable : ¬∃ ks, Keywords entry ks) : BundleFault entry .keywords
  | field {name : Text}
      (known : name ∈ [Text.ofString "domain", Text.ofString "task", Text.ofString "name"])
      (wrong : ¬OptionalField entry name) : BundleFault entry (.field name)

def bundleCheck : EntryCheck Text Bundle where
  place := "bundles"
  key? := declaredBundle?
  check := checkBundle
  Faulty := BundleFault

theorem concern_of_checkKeywordList {id : Text} {items : List Json} :
    ∀ d ∈ (checkKeywordList id seen index items).defects, d.concern = .keywords := by
  induction items generalizing seen index with
  | nil => nofun
  | cons item items ih =>
    unfold checkKeywordList
    split
    · exact List.forall_mem_cons.2 ⟨rfl, ih⟩
    · split
      · exact ih
      · exact ih

/-- Words that cannot be used are reported as such. -/
theorem exists_defect_checkKeywords (id : Text) (unusable : ¬∃ ks, Keywords entry ks) :
    ∃ d ∈ (checkKeywords id entry).defects, d.concern = .keywords := by
  have each : ∀ d ∈ (checkKeywords id entry).defects, d.concern = .keywords := by
    unfold checkKeywords
    split
    · exact concern_of_checkKeywordList
    · exact List.forall_mem_singleton.2 rfl
  rcases checkKeywords_cases id entry with ⟨ks, keywords, -⟩ | ⟨-, defects, ne, checked⟩
  · exact absurd ⟨ks, keywords⟩ unusable
  · rw [checked] at each ⊢
    obtain ⟨d, member⟩ := List.exists_mem_of_ne_nil defects ne
    exact ⟨d, member, each d member⟩

/-- An entry with an id of its own is checked in all its fields. -/
theorem defects_checkBundle {id : Text} (checked : checkBundle seen index entry = .ok own)
    (key : declaredBundle? entry = some id) (fresh : id ∉ seen) :
    own.defects = (checkKeywords id entry).defects ++
      (optionalText entry "domain" (.bundleFieldNotText "domain" id)).defects ++
      (optionalText entry "task" (.bundleFieldNotText "task" id)).defects ++
      (optionalText entry "name" (.bundleFieldNotText "name" id)).defects := by
  unfold declaredBundle? at key
  split at key
  · rename_i object
    have unseen : ¬seen.contains id = true := by simpa using fresh
    simp only [checkBundle, object, key, unseen, Bool.not_true, Bool.false_eq_true, if_false] at checked
    split at checked
    · obtain rfl := Except.ok.inj checked
      rfl
    · obtain ⟨e, -, rfl⟩ := map_eq_ok_iff.1 checked
      rfl
  · cases key

/-- Nothing else is reported of an entry whose id is missing or not its own. -/
theorem concern_checkBundle (checked : checkBundle seen index entry = .ok own)
    (stale : ∀ id, declaredBundle? entry = some id → id ∈ seen) : ∀ d ∈ own.defects, d.concern = .key := by
  unfold declaredBundle? at stale
  unfold checkBundle at checked
  split at checked
  · obtain rfl := Except.ok.inj checked
    exact List.forall_mem_singleton.2 rfl
  · rename_i object
    split at checked
    · obtain rfl := Except.ok.inj checked
      exact List.forall_mem_singleton.2 rfl
    · rename_i id text
      have repeated : seen.contains id = true := by
        rw [List.contains_iff_mem]
        exact stale id (by simpa [text] using object)
      rw [if_pos repeated] at checked
      obtain rfl := Except.ok.inj checked
      exact List.forall_mem_singleton.2 rfl

theorem lawful_bundleCheck : bundleCheck.Lawful where
  apart := by
    rintro entry c (_ | _)
    · exact nofun
    · exact nofun
  complete := by
    intro seen index entry own id c checked key fresh fault
    rw [defects_checkBundle checked key fresh]
    cases fault with
    | keywords unusable =>
      obtain ⟨d, member, concern⟩ := exists_defect_checkKeywords id unusable
      exact ⟨d, by simp [member], concern⟩
    | @field name known wrong =>
      have told := mem_defects_optionalText (.bundleFieldNotText name id) wrong
      simp only [List.mem_cons, List.not_mem_nil, or_false] at known
      refine ⟨.bundleFieldNotText name id, ?_, rfl⟩
      rcases known with rfl | rfl | rfl
      · simp [told]
      · simp [told]
      · simp [told]
  barred := concern_checkBundle
  reaches := by
    intro document result before entry after validated split
    have split : listed document "bundles" = before ++ entry :: after := split
    have member : entry ∈ listed document "bundles" := by simp [split]
    obtain ⟨profiles, bundles, -, checked, reported⟩ :=
      exists_lists_of_validate (isObject_of_listed member) validated
    rw [validateBundles, present?_of_listed member] at checked
    simp only [split, checkBundles_eq] at checked
    obtain ⟨own, found, kept⟩ := exists_own_of_checkEntries checked
    rw [List.nil_append, Nat.zero_add] at found
    exact ⟨own, found, fun d member => reported d (List.mem_append_right _ (kept d member))⟩

end Bundles

/-- One pass over the document reports all that is wrong with its entries. -/
structure Thorough (document : Json) : Prop where
  bundles : bundleCheck.Told document
  profiles : profileCheck.Told document

/-- One pass reports all that is wrong with the entries of a document exactly if those with a faulty field have an
id of their own and, where there are such, no copy fails. -/
theorem thorough_iff (document : Json) :
    Thorough document ↔ bundleCheck.Open document ∧ profileCheck.Open document := by
  rw [← lawful_bundleCheck.told_iff_open, ← lawful_profileCheck.told_iff_open]
  exact ⟨fun thorough => ⟨thorough.bundles, thorough.profiles⟩, fun ⟨bundles, profiles⟩ =>
    ⟨bundles, profiles⟩⟩

/-- A bundle entry without words to be found by. -/
def wordless : Json := .object [("id", .str "review")]

/-- The wordless entry behind a faultless one that has its id. -/
def repeatingEntries : List Json :=
  [.object [("id", .str "review"), ("match", .object [("keywords_any", .texts ["check"])])], wordless]

/-- A document of the three profiles and these bundles. -/
def repeatingDocument : Json :=
  .object [("profiles", .arr (Audience.all.map fun a => .object [("id", .str a.profileId)])),
    ("bundles", .arr repeatingEntries)]

theorem not_always_thorough : ¬∀ document entries, document.field? "bundles" = some (.arr entries) →
    Thorough document := by
  intro always
  have unusable : ¬∃ ks, Keywords wordless ks := by
    rintro ⟨ks, ⟨m, value, -⟩, -, -⟩
    cases value
  have told := (always repeatingDocument repeatingEntries rfl).bundles [_] wordless [] .keywords rfl rfl
    (.keywords unusable)
  obtain ⟨d, ⟨-, own, checked, found⟩, concern⟩ := told
  have checked : checkBundle ["review"] 1 wordless = .ok own := checked
  have alone : checkBundle ["review"] 1 wordless = .ok ⟨[.bundleRepeated "review" 1], none⟩ := rfl
  obtain rfl := Except.ok.inj (alone.symm.trans checked)
  obtain rfl := List.mem_singleton.1 found
  cases concern

end Registry

end RequestCompiler
