import RequestCompiler.Proofs.Json.Changed
import RequestCompiler.Proofs.Registry.Identity
import RequestCompiler.Proofs.Registry.Restated

/-!
# Normalizing a registry is idempotent

The definitions of an accepted document, written down again, are accepted as the same registry. So are
they after steps that a check does not see (`Rearranged`), each of which leaves a document that restates
the registry (`Restates.rearranged`). Where keys are put into another order the definitions may hold
theirs in another order too (`Alike`), which the hash does not see (`Restates.reordered`,
`Alike.hash_eq`). By induction on the steps, `restated_accepted` says this of every such document.
-/

namespace RequestCompiler

/-- Without the parent key under one order of keys, and so under every other. -/
theorem Expansion.Plain.reordered {i j : Json} (plain : Plain i) (h : Json.Reordered i j) : Plain j := by
  induction h with
  | refl => exact plain
  | @arr xs ys length items ih =>
    rw [plain_arr_iff] at plain ⊢
    intro y member
    obtain ⟨n, inBounds, rfl⟩ := List.mem_iff_getElem.1 member
    have inBounds' : n < xs.length := length ▸ inBounds
    exact ih n _ _ (List.getElem?_eq_getElem inBounds') (List.getElem?_eq_getElem inBounds)
      (plain _ (List.getElem_mem inBounds'))
  | obj distinct keys values ih =>
    rw [plain_obj_iff] at plain ⊢
    rintro ⟨key, j⟩ member
    obtain ⟨i, partner⟩ := Json.exists_partner keys.symm member
    exact ⟨(plain _ partner).1, ih key i j partner member (plain _ partner).2⟩

/-- The same profile, but for the order of keys in its expansion. -/
structure Profile.Alike (p q : Profile) : Prop where
  audience : q.audience = p.audience
  name : q.name = p.name
  expansion : Json.Reordered p.expansion q.expansion

/-- The same bundle, but for the order of keys in its expansion. -/
structure Bundle.Alike (a b : Bundle) : Prop where
  id : b.id = a.id
  name : b.name = a.name
  domain : b.domain = a.domain
  task : b.task = a.task
  keywords : b.keywords = a.keywords
  expansion : Json.Reordered a.expansion b.expansion

theorem Profile.Alike.trans {p q s : Profile} (h : p.Alike q) (h' : q.Alike s) : p.Alike s :=
  ⟨h'.audience.trans h.audience, h'.name.trans h.name, h.expansion.trans h'.expansion⟩

theorem Bundle.Alike.trans {a b c : Bundle} (h : a.Alike b) (h' : b.Alike c) : a.Alike c :=
  ⟨h'.id.trans h.id, h'.name.trans h.name, h'.domain.trans h.domain, h'.task.trans h.task,
    h'.keywords.trans h.keywords, h.expansion.trans h'.expansion⟩

namespace Registry

/-- The same profiles and bundles in the same order, but for the order of keys in expansions. -/
structure Alike (r s : Registry) : Prop where
  profile : ∀ a, (r.profileFor a).Alike (s.profileFor a)
  bundles : List.Forall₂ Bundle.Alike r.bundles s.bundles

section Steps

/-- What is read of a profile entry. -/
def profileKeys : List Text := ["id", "name", "expansion"]

/-- What is read of a bundle entry. -/
def bundleKeys : List Text := ["id", "name", "domain", "task", "match", "expansion"]

/-- A word is repeated behind itself, in any case of its letters. -/
inductive Repeated : Json → Json → Prop
  | mk {before after : List Text} {k v : Text} (earlier : k ∈ before) (same : v.lower = k.lower) :
      Repeated (.texts (before ++ after)) (.texts (before ++ v :: after))

/-- Changes of a document that no check sees: another order of the profile entries, a field of an
entry that is not read, and the repeat of a word. -/
inductive Rearranged (document variant : Json) : Prop
  | profiles (h : Json.AtField "profiles" Json.Permuted document variant)
  | profileField (h : Json.AtField "profiles" (Json.AtItem (Json.Added profileKeys)) document variant)
  | bundleField (h : Json.AtField "bundles" (Json.AtItem (Json.Added bundleKeys)) document variant)
  | keyword (h : Json.AtField "bundles" (Json.AtItem (Json.AtField "match"
      (Json.AtField "keywords_any" Repeated))) document variant)

/-- Changes that leave a document the same but for the order of keys in expansions. -/
def Varied (document variant : Json) : Prop :=
  Rearranged document variant ∨ Json.Reordered document variant

end Steps

section Rearranged

variable {r : Registry} {document variant entry entry' : Json} {p : Profile} {b : Bundle}

theorem ProfileWritten.added (written : ProfileWritten entry p)
    (h : Json.Added profileKeys entry entry') : ProfileWritten entry' p where
  id := (h.field? _ (by decide)).trans written.id
  name := (h.field? _ (by decide)).trans written.name
  expansion := (h.field? _ (by decide)).trans written.expansion

theorem BundleWritten.added (written : BundleWritten entry b)
    (h : Json.Added bundleKeys entry entry') : BundleWritten entry' b where
  id := (h.field? _ (by decide)).trans written.id
  name := (h.field? _ (by decide)).trans written.name
  domain := (h.field? _ (by decide)).trans written.domain
  task := (h.field? _ (by decide)).trans written.task
  keywords := by
    rw [h.field? _ (by decide)]
    exact written.keywords
  expansion := (h.field? _ (by decide)).trans written.expansion

/-- A repeat of a word is left out again. -/
theorem Repeated.withoutRepeats {ks : List Text} {j : Json} (h : Repeated (.texts ks) j) :
    ∃ ls, j = .texts ls ∧ withoutRepeats ls = withoutRepeats ks := by
  generalize words : Json.texts ks = i at h
  cases h with
  | mk earlier same =>
    have own : ks = _ := List.map_injective_iff.2 (fun _ _ => Json.str.inj) (Json.arr.inj words)
    exact ⟨_, rfl, own ▸ withoutRepeats_insert earlier same⟩

theorem BundleWritten.repeated (written : BundleWritten entry b)
    (h : Json.AtField "match" (Json.AtField "keywords_any" Repeated) entry entry') :
    BundleWritten entry' b := by
  obtain ⟨m, m', before, after, changed, others⟩ := h.field?
  obtain ⟨v, v', before', after', repeated, -⟩ := changed.field?
  obtain ⟨m'', ks, match', words, kept⟩ := written.keywords
  obtain rfl := Option.some.inj (before.symm.trans match')
  obtain rfl := Option.some.inj (before'.symm.trans words)
  obtain ⟨ls, rfl, same⟩ := repeated.withoutRepeats
  exact
    { id := (others _ (by decide)).trans written.id
      name := (others _ (by decide)).trans written.name
      domain := (others _ (by decide)).trans written.domain
      task := (others _ (by decide)).trans written.task
      keywords := ⟨m', ls, after, after', same.trans kept⟩
      expansion := (others _ (by decide)).trans written.expansion }

theorem Restates.of_profiles {R : Json → Json → Prop} (restates : Restates r document)
    (h : Json.AtField "profiles" R document variant)
    (kept : ∀ entries j ps, R (.arr entries) j → List.Forall₂ ProfileWritten entries ps →
      ∃ entries' ps', j = .arr entries' ∧ List.Forall₂ ProfileWritten entries' ps' ∧ ps'.Perm ps) :
    Restates r variant := by
  obtain ⟨v, w, before, after, changed, others⟩ := h.field?
  obtain ⟨entries, ps, profiles, written, perm⟩ := restates.profiles
  obtain rfl := Option.some.inj (before.symm.trans profiles)
  obtain ⟨entries', ps', rfl, written', perm'⟩ := kept _ _ _ changed written
  obtain ⟨bundleEntries, bundles, rest⟩ := restates.bundles
  exact ⟨⟨entries', ps', after, written', perm'.trans perm⟩,
    ⟨bundleEntries, (others _ (by decide)).trans bundles, rest⟩⟩

theorem Restates.of_bundle {R : Json → Json → Prop} (restates : Restates r document)
    (h : Json.AtField "bundles" (Json.AtItem R) document variant)
    (kept : ∀ e e' b, R e e' → BundleWritten e b → BundleWritten e' b) : Restates r variant := by
  obtain ⟨v, w, before, after, changed, others⟩ := h.field?
  obtain ⟨entries, bundles, written⟩ := restates.bundles
  obtain rfl := Option.some.inj (before.symm.trans bundles)
  obtain ⟨entries', rfl, written'⟩ := changed.forall₂ written kept
  obtain ⟨profileEntries, ps, profiles, rest⟩ := restates.profiles
  exact ⟨⟨profileEntries, ps, (others _ (by decide)).trans profiles, rest⟩, ⟨entries', after, written'⟩⟩

/-- A rearranged document restates the same registry. -/
theorem Restates.rearranged (restates : Restates r document) (h : Rearranged document variant) :
    Restates r variant := by
  cases h with
  | profiles h =>
    refine restates.of_profiles h fun entries j ps changed written => ?_
    cases changed with
    | mk perm =>
      obtain ⟨ps', written', perm'⟩ := List.perm_comp_forall₂ perm written
      exact ⟨_, ps', rfl, written', perm'⟩
  | profileField h =>
    refine restates.of_profiles h fun entries j ps changed written => ?_
    obtain ⟨entries', rfl, written'⟩ := changed.forall₂ written fun _ _ _ added entry =>
      entry.added added
    exact ⟨entries', ps, rfl, written', .refl _⟩
  | bundleField h => exact restates.of_bundle h fun _ _ _ added written => written.added added
  | keyword h => exact restates.of_bundle h fun _ _ _ repeated written => written.repeated repeated

end Rearranged

section Reordered

variable {r s t : Registry} {document variant entry entry' : Json} {p : Profile} {b : Bundle}

theorem SettledExpansion.reordered {i j : Json} (settled : SettledExpansion i) (h : Json.Reordered i j) :
    SettledExpansion j where
  present := by
    rintro rfl
    exact settled.present h.eq_null
  plain := settled.plain.reordered h

theorem Alike.refl (r : Registry) : Alike r r where
  profile _ := ⟨rfl, rfl, .refl _⟩
  bundles := List.forall₂_same.2 fun _ _ => ⟨rfl, rfl, rfl, rfl, rfl, .refl _⟩

theorem Alike.trans (h : Alike r s) (h' : Alike s t) : Alike r t where
  profile a := (h.profile a).trans (h'.profile a)
  bundles := Pointwise.comp (fun _ _ _ first second => first.trans second) h.bundles h'.bundles

/-- What is alike a settled registry is settled. -/
theorem Settled.alike (settled : Settled r) (h : Alike r s) : Settled s where
  audience a := (h.profile a).audience.trans (settled.audience a)
  profiles := by
    refine List.forall_mem_map.2 fun a member => ?_
    exact (settled.profiles _ (List.mem_map_of_mem member)).reordered (h.profile a).expansion
  bundles := by
    intro b member
    obtain ⟨a, registered, alike⟩ := Pointwise.exists_left h.bundles b member
    have own := settled.bundles a registered
    exact
      { id := alike.id ▸ own.id
        ne := alike.keywords ▸ own.ne
        solid := alike.keywords ▸ own.solid
        distinct := alike.keywords ▸ own.distinct
        expansion := own.expansion.reordered alike.expansion }
  distinct := by
    rw [← Pointwise.map_eq_map h.bundles fun _ _ alike => alike.id.symm]
    exact settled.distinct

/-- The order of keys does not show in the hash. -/
theorem Alike.hash_eq (h : Alike r s) : s.hash = r.hash := by
  have profile : ∀ {p q : Profile}, p.Alike q → q.mapExpansion outlined = p.mapExpansion outlined := by
    intro p q alike
    simp only [Profile.mapExpansion, outlined, alike.audience, alike.name, alike.expansion.canonical_eq]
  have dev : s.dev.mapExpansion outlined = r.dev.mapExpansion outlined := profile (h.profile .dev)
  have audit : s.audit.mapExpansion outlined = r.audit.mapExpansion outlined :=
    profile (h.profile .audit)
  have exec : s.exec.mapExpansion outlined = r.exec.mapExpansion outlined := profile (h.profile .exec)
  have bundles : r.bundles.map (Bundle.mapExpansion outlined) =
      s.bundles.map (Bundle.mapExpansion outlined) := by
    refine Pointwise.map_eq_map h.bundles fun a b alike => ?_
    simp only [Bundle.mapExpansion, outlined, alike.id, alike.name, alike.domain, alike.task,
      alike.keywords, alike.expansion.canonical_eq]
  refine hash_eq_of_outline_eq ?_
  rw [outline, outline, mapExpansions, mapExpansions, dev, audit, exec, bundles]

theorem ProfileWritten.reordered (written : ProfileWritten entry p) (h : Json.Reordered entry entry') :
    ∃ q, ProfileWritten entry' q ∧ p.Alike q := by
  obtain ⟨_, id, sameId⟩ := h.field? written.id
  obtain ⟨_, name, sameName⟩ := h.field? written.name
  obtain ⟨e, expansion, same⟩ := h.field? written.expansion
  rw [sameId.eq_str] at id
  rw [sameName.eq_str] at name
  exact ⟨{ p with expansion := e }, ⟨id, name, expansion⟩, ⟨rfl, rfl, same⟩⟩

theorem BundleWritten.reordered (written : BundleWritten entry b) (h : Json.Reordered entry entry') :
    ∃ c, BundleWritten entry' c ∧ b.Alike c := by
  obtain ⟨_, id, sameId⟩ := h.field? written.id
  obtain ⟨_, name, sameName⟩ := h.field? written.name
  obtain ⟨_, domain, sameDomain⟩ := h.field? written.domain
  obtain ⟨_, task, sameTask⟩ := h.field? written.task
  obtain ⟨m, ks, match', words, kept⟩ := written.keywords
  obtain ⟨m', match'', sameMatch⟩ := h.field? match'
  obtain ⟨_, words', sameWords⟩ := sameMatch.field? words
  obtain ⟨e, expansion, same⟩ := h.field? written.expansion
  rw [sameId.eq_str] at id
  rw [sameName.eq_str] at name
  rw [sameDomain.eq_str] at domain
  rw [sameTask.eq_str] at task
  rw [sameWords.eq_texts] at words'
  exact ⟨{ b with expansion := e }, ⟨id, name, domain, task, ⟨m', ks, match'', words', kept⟩, expansion⟩,
    ⟨rfl, rfl, rfl, rfl, rfl, same⟩⟩

/-- Profiles that are alike those of a registry belong to a registry, with any bundles. -/
theorem exists_alike {qs : List Profile} (alike : List.Forall₂ Profile.Alike r.profiles qs)
    (bs : List Bundle) : ∃ s : Registry, s.profiles = qs ∧ s.bundles = bs ∧
      ∀ a, (r.profileFor a).Alike (s.profileFor a) := by
  have alike : List.Forall₂ Profile.Alike [r.dev, r.audit, r.exec] qs := alike
  cases alike with
  | @cons _ dev _ _ first rest =>
    cases rest with
    | @cons _ audit _ _ second rest =>
      cases rest with
      | @cons _ exec _ _ third rest =>
        cases rest
        refine ⟨⟨dev, audit, exec, bs⟩, rfl, rfl, fun a => ?_⟩
        cases a
        · exact first
        · exact second
        · exact third

/-- A document with its keys in another order restates a registry that is alike. -/
theorem Restates.reordered (restates : Restates r document) (h : Json.Reordered document variant) :
    ∃ s, Restates s variant ∧ Alike r s := by
  obtain ⟨entries, ps, profiles, written, perm⟩ := restates.profiles
  obtain ⟨_, profiles', sameProfiles⟩ := h.field? profiles
  obtain ⟨entries', rfl, sameEntries⟩ := sameProfiles.exists_arr
  obtain ⟨qs, written', alike⟩ := Pointwise.exists_square written sameEntries
    fun _ _ _ entry => entry.reordered
  obtain ⟨bundleEntries, bundles, bundlesWritten⟩ := restates.bundles
  obtain ⟨_, bundles', sameBundles⟩ := h.field? bundles
  obtain ⟨bundleEntries', rfl, sameBundleEntries⟩ := sameBundles.exists_arr
  obtain ⟨bs, bundlesWritten', bundlesAlike⟩ := Pointwise.exists_square bundlesWritten sameBundleEntries
    fun _ _ _ entry => entry.reordered
  -- The order of the entries leads back to that of the audiences.
  obtain ⟨listed, alikes, perm'⟩ := List.perm_comp_forall₂ perm.symm alike
  obtain ⟨s, rfl, rfl, each⟩ := exists_alike alikes bs
  exact ⟨s, ⟨⟨entries', qs, profiles', written', perm'.symm⟩,
    ⟨bundleEntries', bundles', bundlesWritten'⟩⟩, ⟨each, bundlesAlike⟩⟩

end Reordered

section Variants

open Relation

variable {document variant : Json} {r : Registry}

theorem Restates.of_rearranged (restates : Restates r document)
    (h : ReflTransGen Rearranged document variant) : Restates r variant := by
  induction h with
  | refl => exact restates
  | tail _ step ih => exact ih.rearranged step

theorem Restates.of_varied (restates : Restates r document) (h : ReflTransGen Varied document variant) :
    ∃ s, Restates s variant ∧ Alike r s := by
  induction h with
  | refl => exact ⟨r, restates, .refl r⟩
  | tail _ step ih =>
    obtain ⟨s, again, alike⟩ := ih
    rcases step with step | step
    · exact ⟨s, again.rearranged step, alike⟩
    · obtain ⟨t, again', alike'⟩ := again.reordered step
      exact ⟨t, again', alike.trans alike'⟩

/-- The document of an accepted registry is accepted as the same registry, and so is every document
that is rearranged from it. Where keys are put into another order as well, the registry is the same but
for the order of keys in its expansions, and its hash is the same. -/
theorem restated_accepted (accepted : ofDocument document = .ok r) :
    ofDocument r.restated = .ok r ∧
      (∀ variant, ReflTransGen Rearranged r.restated variant → ofDocument variant = .ok r) ∧
      ∀ variant, ReflTransGen Varied r.restated variant →
        ∃ s, ofDocument variant = .ok s ∧ Alike r s ∧ s.hash = r.hash := by
  have settled := settled_of_accepted accepted
  have restates := settled.restates
  refine ⟨restates.accepted settled, fun variant steps => ?_, fun variant steps => ?_⟩
  · exact (restates.of_rearranged steps).accepted settled
  · obtain ⟨s, again, alike⟩ := restates.of_varied steps
    exact ⟨s, again.accepted (settled.alike alike), alike, alike.hash_eq⟩

section Shuffled

/-- The document of a sample with its profiles in another order. -/
def shuffledFields (keywords : List Text) (expansion : Json) : List (Text × Json) :=
  [(Text.ofString "profiles", .arr ((sample keywords expansion).profiles.map Profile.json).reverse),
    (Text.ofString "bundles", .arr [(Bundle.mk "review" "review" [] [] keywords expansion).entry])]

theorem rearranged_shuffled (keywords : List Text) (expansion : Json) :
    Rearranged (sample keywords expansion).restated (.obj (shuffledFields keywords expansion)) :=
  .profiles (@Json.AtField.mk _ _ [] _ _ _ List.not_mem_nil (.mk (List.reverse_perm _)))

/-- A word of the bundle is repeated in capital letters. -/
theorem rearranged_repeat (expansion : Json) :
    Rearranged (.obj (shuffledFields ["Check", "review"] expansion))
      (.obj (shuffledFields ["Check", "CHECK", "review"] expansion)) := by
  have words : Repeated (.texts (["Check"] ++ ["review"]))
      (.texts (["Check"] ++ "CHECK" :: ["review"])) := .mk List.mem_cons_self (by decide)
  refine .keyword (@Json.AtField.mk _ _ [(_, _)] [] _ _ ?_ (@Json.AtItem.mk _ [] [] _ _ ?_))
  · change Text.ofString "bundles" ∉ [Text.ofString "profiles"]
    decide
  refine @Json.AtField.mk _ _ [(_, _), (_, _), (_, _), (_, _)] _ _ _ ?_
    (@Json.AtField.mk _ _ [] [] _ _ List.not_mem_nil words)
  simp only [List.map_cons, List.map_nil]
  decide

/-- Words in two spellings, of which the first is kept, come back with a repeat, with the profiles in
another order, and with the keys of the document in another order. -/
theorem restated_accepted_shuffled :
    ofDocument (sampleDocument ["Check", "review", "check"] (.arr [])) =
        .ok (sample ["Check", "review"] (.arr [])) ∧
      ofDocument (.obj (shuffledFields ["Check", "CHECK", "review"] (.arr []))) =
        .ok (sample ["Check", "review"] (.arr [])) ∧
      ∃ s, ofDocument (.obj (shuffledFields ["Check", "CHECK", "review"] (.arr [])).reverse) = .ok s ∧
        s.hash = (sample ["Check", "review"] (.arr [])).hash := by
  have accepted : ofDocument (sampleDocument ["Check", "review", "check"] (.arr [])) =
      .ok (sample ["Check", "review"] (.arr [])) := rfl
  have shuffled : ReflTransGen Rearranged (sample ["Check", "review"] (.arr [])).restated
      (.obj (shuffledFields ["Check", "CHECK", "review"] (.arr []))) :=
    .tail (.single (rearranged_shuffled _ _)) (rearranged_repeat _)
  have turned : Json.Reordered (.obj (shuffledFields ["Check", "CHECK", "review"] (.arr [])))
      (.obj (shuffledFields ["Check", "CHECK", "review"] (.arr [])).reverse) := by
    refine .of_perm ?_ (List.reverse_perm _)
    change [Text.ofString "profiles", Text.ofString "bundles"].Nodup
    decide
  obtain ⟨-, same, alike⟩ := restated_accepted accepted
  obtain ⟨s, again, -, hash⟩ := alike _ ((shuffled.lift id fun _ _ => .inl).tail (.inr turned))
  exact ⟨accepted, same _ shuffled, s, again, hash⟩

end Shuffled

end Variants

end Registry

end RequestCompiler
