import RequestCompiler.Proofs.Lookup
import RequestCompiler.Proofs.Registry.WellFormed

/-!
# Registries of accepted documents

An accepted document becomes a registry with the definitions of its entries. The bundle ids are
pairwise distinct (`ofDocument_nodup`), so a bundle is found again under its id
(`bundle?_eq_some`), and every audience has one profile, which is its own (`exists_ofDefinitions`).
-/

namespace RequestCompiler.Registry

section Declared

variable {document : Json} {d : Definitions}

theorem listed_of_arr {key : Text} {entries : List Json}
    (value : document.field? key = some (.arr entries)) : listed document key = entries := by
  rw [listed, value]

theorem listed_of_absent {key : Text}
    (value : document.field? key = none ∨ document.field? key = some .null) :
    listed document key = [] := by
  rcases value with value | value <;> rw [listed, value]

/-- Every audience has one profile. -/
theorem audiences_perm (formed : WellFormed document) (declares : Declares document d) :
    (d.profiles.map Profile.audience).Perm Audience.all := by
  obtain ⟨entries, value, list⟩ := formed.profiles
  have made := declares.profiles
  rw [listed_of_arr value] at made
  have ids := list.ids
  rw [Pointwise.map_eq_map made fun _ _ source => source.id] at ids
  have own : (d.profiles.map fun p => some (Json.str p.id)) =
      (d.profiles.map Profile.audience).map fun a => some (.str a.profileId) := by
    rw [List.map_map]
    rfl
  rwa [own, List.map_perm_map_iff idOf_injective] at ids

theorem ids_nodup (formed : WellFormed document) (declares : Declares document d) :
    (d.bundles.map Bundle.id).Nodup := by
  have made := declares.bundles
  have own : (d.bundles.map fun b => some (Json.str b.id)) =
      (d.bundles.map Bundle.id).map fun id => some (.str id) := by
    rw [List.map_map]
    rfl
  have distinct : ((listed document "bundles").map fun e => e.field? "id").Nodup := by
    rcases formed.bundles with value | value | ⟨entries, value, list⟩
    · rw [listed_of_absent (.inl value)]
      exact List.nodup_nil
    · rw [listed_of_absent (.inr value)]
      exact List.nodup_nil
    · rw [listed_of_arr value]
      exact list.distinct
  rw [Pointwise.map_eq_map made fun _ _ source => source.id, own] at distinct
  exact distinct.of_map _

end Declared

theorem ofDefinitions?_eq_some_iff {d : Definitions} {r : Registry} :
    ofDefinitions? d = some r ↔
      (∀ a, (d.profiles.find? fun p => p.audience == a) = some (r.profileFor a)) ∧
        r.bundles = d.bundles := by
  simp only [ofDefinitions?, Option.bind_eq_bind, Option.bind_eq_some_iff, Option.pure_def]
  constructor
  · rintro ⟨dev, hdev, audit, haudit, exec, hexec, answer⟩
    obtain rfl := Option.some.inj answer
    refine ⟨fun a => ?_, rfl⟩
    cases a
    · exact hdev
    · exact haudit
    · exact hexec
  · rintro ⟨found, bundles⟩
    exact ⟨_, found .dev, _, found .audit, _, found .exec, by rw [← bundles]; rfl⟩

/-- Accepted definitions make up a registry, with their bundles and each of their profiles. -/
theorem exists_ofDefinitions {document : Json} {d : Definitions}
    (accepted : validate document = .ok (.ok d)) :
    ∃ r, ofDefinitions? d = some r ∧ r.bundles = d.bundles ∧
      ∀ p ∈ d.profiles, r.profileFor p.audience = p := by
  obtain ⟨formed, declares⟩ := wellFormed_of_accepted accepted
  have perm := audiences_perm formed declares
  have distinct : (d.profiles.map Profile.audience).Nodup := perm.nodup_iff.2 (by decide)
  have found : ∀ p ∈ d.profiles, (d.profiles.find? fun q => q.audience == p.audience) = some p :=
    fun p member => find?_key_eq_some distinct member
  have each : ∀ a, ∃ p, (d.profiles.find? fun q => q.audience == a) = some p := by
    intro a
    obtain ⟨p, member, rfl⟩ := List.mem_map.1 (perm.mem_iff.2 (mem_audiences a))
    exact ⟨p, found p member⟩
  obtain ⟨dev, hdev⟩ := each .dev
  obtain ⟨audit, haudit⟩ := each .audit
  obtain ⟨exec, hexec⟩ := each .exec
  have complete : ofDefinitions? d = some ⟨dev, audit, exec, d.bundles⟩ := by
    refine ofDefinitions?_eq_some_iff.2 ⟨fun a => ?_, rfl⟩
    cases a
    · exact hdev
    · exact haudit
    · exact hexec
  refine ⟨_, complete, rfl, fun p member => ?_⟩
  exact Option.some.inj (((ofDefinitions?_eq_some_iff.1 complete).1 _).symm.trans (found p member))

theorem ofDocument_eq_ok {document : Json} {r : Registry} (accepted : ofDocument document = .ok r) :
    ∃ d, validate document = .ok (.ok d) ∧ ofDefinitions? d = some r := by
  unfold ofDocument at accepted
  split at accepted
  · cases accepted
  · cases accepted
  · rename_i d valid
    rw [mapError_eq_ok_iff, ofDefinitions] at accepted
    split at accepted
    · rename_i complete
      obtain rfl := Except.ok.inj accepted
      exact ⟨d, valid, complete⟩
    · cases accepted

/-- Each audience of an accepted document has its own profile. -/
theorem audience_profileFor {document : Json} {r : Registry} (accepted : ofDocument document = .ok r)
    (a : Audience) : (r.profileFor a).audience = a := by
  obtain ⟨d, -, complete⟩ := ofDocument_eq_ok accepted
  have found := (ofDefinitions?_eq_some_iff.1 complete).1 a
  simpa using List.find?_some found

/-- No two bundles of an accepted document share an id. -/
theorem ofDocument_nodup {document : Json} {r : Registry} (accepted : ofDocument document = .ok r) :
    (r.bundles.map Bundle.id).Nodup := by
  obtain ⟨d, valid, complete⟩ := ofDocument_eq_ok accepted
  obtain ⟨formed, declares⟩ := wellFormed_of_accepted valid
  rw [(ofDefinitions?_eq_some_iff.1 complete).2]
  exact ids_nodup formed declares

variable {r : Registry}

/-- Under distinct ids, a bundle is what its id stands for. -/
theorem bundle?_eq_some (distinct : (r.bundles.map Bundle.id).Nodup) {b : Bundle}
    (member : b ∈ r.bundles) : r.bundle? b.id = some b :=
  find?_key_eq_some distinct member

/-- Each profile of a registry is registered. -/
theorem hasProfile_profileFor (r : Registry) (a : Audience) :
    r.hasProfile (r.profileFor a).id = true := by
  have listed : r.profileFor a ∈ r.profiles :=
    List.mem_map_of_mem (by cases a <;> decide)
  exact List.any_eq_true.2 ⟨_, listed, beq_self_eq_true _⟩

end RequestCompiler.Registry
