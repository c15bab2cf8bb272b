import RequestCompiler.Proofs.Except
import RequestCompiler.Proofs.Registry.Fields

/-!
# The check of one registry entry

A profile or bundle entry is checked after others, whose keys it may not repeat. `Checks` lists the
three ways in which this ends: the entry is refused, its expansion cannot be copied, or it is made
into a definition, which may still have a wrong field. `checkProfile_checks` and
`checkBundle_checks` say so of the two kinds of entries; which documents are accepted, and as what,
is told from them alone.
-/

namespace RequestCompiler.Registry

/-- What makes entries into definitions. -/
structure EntryKind (κ α : Type) where
  /-- What no two entries of a list share. -/
  key? : Json → Option κ
  /-- The entry has all that a definition is made of. -/
  Usable : Json → Prop
  /-- What the entry may leave out it leaves out, or it is of the right kind. -/
  Tidy : Json → Prop
  /-- The definition that the entry makes. -/
  Makes : Json → α → Prop

/-- The ways in which the check of an entry ends, after entries with the keys of `seen`. -/
inductive Checks {κ α : Type} (K : EntryKind κ α) (seen : List κ) (entry : Json) :
    Except Expansion.CopyFault (Checked (Option α)) → Prop
  | refused {defects : List Defect} (ne : defects ≠ [])
      (unusable : ∀ k, K.key? entry = some k → K.Usable entry → k ∈ seen) :
      Checks K seen entry (.ok ⟨defects, none⟩)
  | faulted {k : κ} {fault : Expansion.CopyFault} (key : K.key? entry = some k) (fresh : k ∉ seen)
      (usable : K.Usable entry) (failed : expansionOf entry = .error fault) :
      Checks K seen entry (.error fault)
  | defined {k : κ} {e : Json} {defects : List Defect} {a : α} (key : K.key? entry = some k)
      (fresh : k ∉ seen) (usable : K.Usable entry) (tidy : defects = [] ↔ K.Tidy entry)
      (copied : expansionOf entry = .ok e) (makes : K.Makes entry a) :
      Checks K seen entry (.ok ⟨defects, some a⟩)

/-- An entry that is made into a definition is so unless its expansion cannot be copied. -/
theorem Checks.of_map {κ α : Type} {K : EntryKind κ α} {seen : List κ} {entry : Json} {k : κ}
    {defects : List Defect} {make : Json → α} (key : K.key? entry = some k) (fresh : k ∉ seen)
    (usable : K.Usable entry) (tidy : defects = [] ↔ K.Tidy entry)
    (makes : ∀ e, expansionOf entry = .ok e → K.Makes entry (make e)) :
    Checks K seen entry ((expansionOf entry).map fun e => ⟨defects, some (make e)⟩) := by
  cases copied : expansionOf entry with
  | error fault => exact .faulted key fresh usable copied
  | ok e => exact .defined key fresh usable tidy copied (makes e copied)

section Profile

/-- The profile is that of the entry. -/
structure ProfileFrom (entry : Json) (p : Profile) : Prop where
  id : entry.field? "id" = some (.str p.id)
  name : p.name = (fieldText? entry "name").getD p.id
  expansion : expansionOf entry = .ok p.expansion

/-- Entries of `profiles`. -/
def profileEntries : EntryKind Audience Profile where
  key? := declaredAudience?
  Usable _ := True
  Tidy entry := OptionalField entry "name"
  Makes := ProfileFrom

theorem ofProfileId?_eq_some_iff {id : Text} {a : Audience} :
    Audience.ofProfileId? id = some a ↔ id = a.profileId := by
  constructor
  · intro found
    have same := List.find?_some found
    exact (beq_iff_eq.1 same).symm
  · rintro rfl
    cases a <;> decide

theorem field?_of_not_object {entry : Json} (object : entry.isObject = false) (key : Text) :
    entry.field? key = none := by
  cases entry with
  | obj _ => cases object
  | _ => rfl

/-- The id of an entry declares a profile if it is that of an audience. -/
theorem declaredAudience?_eq_some_iff {entry : Json} {a : Audience} :
    declaredAudience? entry = some a ↔ entry.field? "id" = some (.str a.profileId) := by
  have solid : a.profileId.trim ≠ [] := by cases a <;> decide
  unfold declaredAudience?
  cases object : entry.isObject with
  | false => simp [field?_of_not_object object]
  | true =>
    simp only [if_true, Option.bind_eq_some_iff, solidText?_eq_some_iff, ofProfileId?_eq_some_iff]
    constructor
    · rintro ⟨_, ⟨id, -⟩, rfl⟩
      exact id
    · exact fun id => ⟨_, ⟨id, solid⟩, rfl⟩

theorem checkProfile_checks (seen : List Audience) (index : Nat) (entry : Json) :
    Checks profileEntries seen entry (checkProfile seen index entry) := by
  have refused : ∀ defect : Defect, (∀ a, declaredAudience? entry = some a → a ∈ seen) →
      Checks profileEntries seen entry (.ok ⟨[defect], none⟩) := fun _ unusable =>
    .refused (List.cons_ne_nil _ _) fun a key _ => unusable a key
  unfold checkProfile
  cases object : entry.isObject with
  | false =>
    refine refused _ fun a key => ?_
    simp [declaredAudience?, object] at key
  | true =>
    cases text : solidText? (entry.field? "id") with
    | none =>
      refine refused _ fun a key => ?_
      simp [declaredAudience?, object, text] at key
    | some id =>
      cases recognized : Audience.ofProfileId? id with
      | none =>
        simp only [Bool.not_true, Bool.false_eq_true, if_false, recognized]
        refine refused _ fun a key => ?_
        simp [declaredAudience?, object, text, recognized] at key
      | some a =>
        simp only [Bool.not_true, Bool.false_eq_true, if_false, recognized]
        have key : declaredAudience? entry = some a := by
          simp [declaredAudience?, object, text, recognized]
        by_cases repeated : seen.contains a = true
        · rw [if_pos repeated]
          refine refused _ fun b other => ?_
          obtain rfl := Option.some.inj (key.symm.trans other)
          simpa using repeated
        · rw [if_neg repeated]
          obtain rfl := ofProfileId?_eq_some_iff.1 recognized
          refine .of_map key (by simpa using repeated) trivial defects_optionalText fun e copied => ?_
          exact ⟨declaredAudience?_eq_some_iff.1 key, by rw [accepted_optionalText]; rfl, copied⟩

end Profile

section Bundle

/-- The bundle is that of the entry. -/
structure BundleFrom (entry : Json) (b : Bundle) : Prop where
  id : entry.field? "id" = some (.str b.id)
  name : b.name = (fieldText? entry "name").getD b.id
  domain : b.domain = (fieldText? entry "domain").getD []
  task : b.task = (fieldText? entry "task").getD []
  keywords : ∃ ks, Keywords entry ks ∧ b.keywords = withoutRepeats ks
  expansion : expansionOf entry = .ok b.expansion

/-- Entries of `bundles`. -/
def bundleEntries : EntryKind Text Bundle where
  key? := declaredBundle?
  Usable entry := ∃ ks, Keywords entry ks
  Tidy entry :=
    OptionalField entry "domain" ∧ OptionalField entry "task" ∧ OptionalField entry "name"
  Makes := BundleFrom

theorem declaredBundle?_eq_some_iff {entry : Json} {id : Text} :
    declaredBundle? entry = some id ↔ entry.field? "id" = some (.str id) ∧ id.trim ≠ [] := by
  unfold declaredBundle?
  cases object : entry.isObject with
  | false => simp [field?_of_not_object object]
  | true => rw [if_pos rfl, solidText?_eq_some_iff]

theorem checkBundle_checks (seen : List Text) (index : Nat) (entry : Json) :
    Checks bundleEntries seen entry (checkBundle seen index entry) := by
  have refused : ∀ defect : Defect, (∀ id, declaredBundle? entry = some id → id ∈ seen) →
      Checks bundleEntries seen entry (.ok ⟨[defect], none⟩) := fun _ unusable =>
    .refused (List.cons_ne_nil _ _) fun id key _ => unusable id key
  unfold checkBundle
  cases object : entry.isObject with
  | false =>
    refine refused _ fun id key => ?_
    simp [declaredBundle?, object] at key
  | true =>
    cases text : solidText? (entry.field? "id") with
    | none =>
      refine refused _ fun id key => ?_
      simp [declaredBundle?, object, text] at key
    | some id =>
      simp only [Bool.not_true, Bool.false_eq_true, if_false]
      have key : declaredBundle? entry = some id := by simp [declaredBundle?, object, text]
      by_cases repeated : seen.contains id = true
      · rw [if_pos repeated]
        refine refused _ fun other declared => ?_
        obtain rfl := Option.some.inj (key.symm.trans declared)
        simpa using repeated
      · rw [if_neg repeated]
        rcases checkKeywords_cases id entry with ⟨ks, keywords, checked⟩ | ⟨none, ds, ne, checked⟩
        · rw [checked]
          refine .of_map key (by simpa using repeated) ⟨ks, keywords⟩ ?_ fun e copied => ?_
          · simp only [List.nil_append, List.append_eq_nil_iff, defects_optionalText, and_assoc]
            rfl
          · simp only [accepted_optionalText]
            exact ⟨(declaredBundle?_eq_some_iff.1 key).1, rfl, rfl, rfl, ⟨ks, keywords, rfl⟩, copied⟩
        · rw [checked]
          refine .refused ?_ fun _ _ usable => absurd usable none
          simp [ne]

end Bundle

end RequestCompiler.Registry
