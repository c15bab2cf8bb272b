import RequestCompiler.Proofs.Registry.Accepted
import RequestCompiler.Proofs.Registry.Expansion

/-!
# The gate to a registry

A document is to become a registry or to be refused with the defects that its check finds. It is
`Gated` in this way unless it has an entry whose expansion cannot be copied and that the check comes
to (`gated_iff`); then the fault of the copy is all that is reported (`ofDocument_eq_copy_iff`).
-/

namespace RequestCompiler.Registry

variable {document : Json}

/-- The entry has an expansion that cannot be copied. -/
def Uncopyable (entry : Json) : Prop :=
  ∃ expansion, entry.field? "expansion" = some expansion ∧ Expansion.Blocked expansion

/-- The check of the document comes to an entry whose expansion cannot be copied. -/
def Clashes (document : Json) : Prop :=
  (∃ entry, Reached profileEntries [] (listed document "profiles") entry ∧ Uncopyable entry) ∨
    ∃ entry, Reached bundleEntries [] (listed document "bundles") entry ∧ Uncopyable entry

/-- The document becomes a registry of its definitions, or it is refused with its defects. -/
def Gated (document : Json) : Prop :=
  (∃ d r, validate document = .ok (.ok d) ∧ ofDefinitions? d = some r ∧ ofDocument document = .ok r) ∨
    ∃ defects, defects ≠ [] ∧ validate document = .ok (.error defects) ∧
      ofDocument document = .error (.configuration ⟨defects.map Defect.issue⟩)

section Faults

theorem expansionOf_eq_error_iff {entry : Json} :
    (∃ fault, expansionOf entry = .error fault) ↔ Uncopyable entry := by
  have nothing : ¬Expansion.Blocked (.arr []) := by simp [Expansion.blocked_arr_iff]
  have null : ¬Expansion.Blocked .null := Expansion.Plain.not_blocked nofun
  rw [expansionOf, Expansion.exists_copy_eq_error_iff, Uncopyable, Json.present?]
  cases value : entry.field? "expansion" with
  | none => simpa using nothing
  | some j =>
    cases j with
    | null => simp [nothing, null]
    | _ => simp

theorem validateProfiles_eq_error_iff :
    (∃ fault, validateProfiles document = .error fault) ↔
      ∃ entry, Reached profileEntries [] (listed document "profiles") entry ∧ Uncopyable entry := by
  unfold validateProfiles Json.present? listed
  cases value : document.field? "profiles" with
  | none => simp [not_reached_nil]
  | some j =>
    cases j with
    | arr entries =>
      simp only [map_eq_error_iff, checkProfiles_eq, ← expansionOf_eq_error_iff]
      exact checkEntries_eq_error_iff (K := profileEntries) checkProfile_checks
    | _ => simp [not_reached_nil]

theorem validateBundles_eq_error_iff :
    (∃ fault, validateBundles document = .error fault) ↔
      ∃ entry, Reached bundleEntries [] (listed document "bundles") entry ∧ Uncopyable entry := by
  unfold validateBundles Json.present? listed
  cases value : document.field? "bundles" with
  | none => simp [not_reached_nil]
  | some j =>
    cases j with
    | arr entries =>
      simp only [checkBundles_eq, ← expansionOf_eq_error_iff]
      exact checkEntries_eq_error_iff (K := bundleEntries) checkBundle_checks
    | _ => simp [not_reached_nil]

theorem listed_of_not_object (object : document.isObject = false) (key : Text) :
    listed document key = [] := by
  rw [listed, field?_of_not_object object]

theorem validate_eq_error_iff : (∃ fault, validate document = .error fault) ↔ Clashes document := by
  unfold validate
  cases object : document.isObject with
  | false => simp [Clashes, listed_of_not_object object, not_reached_nil]
  | true =>
    rw [Clashes, ← validateProfiles_eq_error_iff, ← validateBundles_eq_error_iff]
    cases validateProfiles document with
    | error fault => exact iff_of_true ⟨fault, rfl⟩ (.inl ⟨fault, rfl⟩)
    | ok profiles =>
      cases validateBundles document with
      | error fault => exact iff_of_true ⟨fault, rfl⟩ (.inr ⟨fault, rfl⟩)
      | ok bundles => exact iff_of_false nofun (by simp)

end Faults

/-- Only the fault of a copy keeps a document from becoming a registry or a list of defects. -/
theorem ofDocument_eq_copy_iff {fault : Expansion.CopyFault} :
    ofDocument document = .error (.copy fault) ↔ validate document = .error fault := by
  unfold ofDocument
  cases result : validate document with
  | error other => simp
  | ok checked =>
    cases checked with
    | error defects => exact iff_of_false nofun nofun
    | ok d =>
      obtain ⟨r, complete, -⟩ := exists_ofDefinitions result
      simp [ofDefinitions, complete, Except.mapError]

/-- The document passes the gate, one way or the other, unless it clashes. -/
theorem gated_iff (document : Json) : Gated document ↔ ¬Clashes document := by
  rw [← validate_eq_error_iff]
  cases result : validate document with
  | error fault =>
    refine iff_of_false ?_ fun clear => clear ⟨fault, rfl⟩
    rintro (⟨d, r, accepted, -⟩ | ⟨defects, -, refused, -⟩)
    · exact nomatch result.symm.trans accepted
    · exact nomatch result.symm.trans refused
  | ok checked =>
    refine iff_of_true ?_ nofun
    cases checked with
    | error defects =>
      refine .inr ⟨defects, (not_wellFormed_of_refused result).1, result, ?_⟩
      rw [ofDocument, result]
    | ok d =>
      obtain ⟨r, complete, -⟩ := exists_ofDefinitions result
      refine .inl ⟨d, r, result, complete, ?_⟩
      rw [ofDocument, result]
      simp only [ofDefinitions, complete]
      rfl

/-- An expansion in which a field repeats one of its object's parent. -/
def clashing : Json :=
  .object [("__proto__", .object [("level", .str "one")]), ("level", .str "two")]

theorem not_always_gated : ¬∀ document, Gated document := by
  intro always
  have failed : validate (sampleDocument ["check"] clashing) = .error (.fixedField "level") := rfl
  rcases always (sampleDocument ["check"] clashing) with ⟨d, r, accepted, -⟩ | ⟨ds, -, refused, -⟩
  · exact nomatch failed.symm.trans accepted
  · exact nomatch failed.symm.trans refused

end RequestCompiler.Registry
