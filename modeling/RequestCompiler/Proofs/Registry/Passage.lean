import RequestCompiler.Proofs.Registry.Accepted
import RequestCompiler.Proofs.Registry.Expansion

/-!
# The passage of expansion content into a registry

An accepted document hands the expansion of each entry to the definition of that entry, without the
fields that have the parent key: it arrives unchanged exactly if there is no such field in it, at
any depth (`carries_pruned`).
-/

namespace RequestCompiler.Registry

variable {document : Json} {r : Registry}

/-- The expansion that an entry has and the one that its definition keeps are related, for every
entry that has one. -/
structure Carries (related : Json → Json → Prop) (document : Json) (r : Registry) : Prop where
  bundles : ∀ (i : Nat) (entry source : Json), (listed document "bundles")[i]? = some entry →
    entry.present? "expansion" = some source →
    ∃ b, r.bundles[i]? = some b ∧ entry.field? "id" = some (.str b.id) ∧ related source b.expansion
  profiles : ∀ entry ∈ listed document "profiles", ∀ source : Json,
    entry.present? "expansion" = some source →
    ∃ a : Audience, entry.field? "id" = some (.str a.profileId) ∧
      related source (r.profileFor a).expansion

/-- An expansion that is there is pruned by its copy. -/
theorem pruned_of_expansionOf {entry source kept : Json}
    (value : entry.present? "expansion" = some source) (copied : expansionOf entry = .ok kept) :
    kept = Expansion.pruned source := by
  rw [expansionOf, value] at copied
  exact (Expansion.copy_eq_ok_iff.1 copied).2

/-- Expansions are handed over without the fields that have the parent key, so those without such a
field are unchanged and no others. -/
theorem carries_pruned (accepted : ofDocument document = .ok r) :
    Carries (fun source kept => kept = Expansion.pruned source ∧
      (kept = source ↔ Expansion.Plain source)) document r := by
  have carried : ∀ {entry source kept : Json}, entry.present? "expansion" = some source →
      expansionOf entry = .ok kept →
      kept = Expansion.pruned source ∧ (kept = source ↔ Expansion.Plain source) := by
    intro entry source kept value copied
    obtain rfl := pruned_of_expansionOf value copied
    exact ⟨rfl, Expansion.pruned_eq_self_iff⟩
  obtain ⟨d, valid, complete⟩ := ofDocument_eq_ok accepted
  obtain ⟨-, declares⟩ := wellFormed_of_accepted valid
  obtain ⟨r', complete', bundles, profiles⟩ := exists_ofDefinitions valid
  obtain rfl := Option.some.inj (complete.symm.trans complete')
  constructor
  · intro i entry source place value
    obtain ⟨inBounds, rfl⟩ := List.getElem?_eq_some_iff.1 place
    have inBounds' := declares.bundles.length_eq ▸ inBounds
    have made := declares.bundles.get inBounds inBounds'
    refine ⟨d.bundles[i], ?_, made.id, carried value made.expansion⟩
    rw [bundles, List.getElem?_eq_getElem inBounds']
  · intro entry member source value
    obtain ⟨i, inBounds, rfl⟩ := List.mem_iff_getElem.1 member
    have inBounds' := declares.profiles.length_eq ▸ inBounds
    have made := declares.profiles.get inBounds inBounds'
    have own := profiles d.profiles[i] (List.getElem_mem inBounds')
    refine ⟨d.profiles[i].audience, made.id, ?_⟩
    rw [own]
    exact carried value made.expansion

/-- An expansion with a field that has the parent key. -/
def parented : Json := .object [("__proto__", .str "one"), ("level", .str "two")]

/-- Of that expansion the other field is kept. -/
theorem carries_pruned_parented :
    ofDocument (sampleDocument ["check"] parented) =
        .ok (sample ["check"] (.object [("level", .str "two")])) ∧
      Carries (fun source kept => kept = Expansion.pruned source ∧
        (kept = source ↔ Expansion.Plain source)) (sampleDocument ["check"] parented)
        (sample ["check"] (.object [("level", .str "two")])) :=
  ⟨rfl, carries_pruned rfl⟩

theorem not_always_unchanged :
    ¬∀ document r, ofDocument document = .ok r →
      Carries (fun source kept => kept = source) document r := by
  intro always
  have carries := always (sampleDocument ["check"] parented)
    (sample ["check"] (.object [("level", .str "two")])) rfl
  obtain ⟨b, place, -, same⟩ := carries.bundles 0 _ parented rfl rfl
  obtain rfl := Option.some.inj place
  have fields := Json.obj.inj same
  exact absurd (congrArg List.length fields) (by decide)

end RequestCompiler.Registry
