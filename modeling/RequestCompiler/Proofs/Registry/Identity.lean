import RequestCompiler.Proofs.Json.Canonical
import RequestCompiler.Registry

/-!
# What the hash of a registry identifies

The hash is taken of the canonical text of the content. That text tells the whole registry but for
the layout of its expansions: it is the same for two registries exactly if their outlines are
(`content_canonical_eq_iff`). So as long as SHA-256 keeps two contents apart, so do their hashes
(`outline_eq_of_hash_eq`).
-/

namespace RequestCompiler

namespace Sha256

/-- Hexadecimal digits tell the bytes. -/
theorem hex_injective : Function.Injective hex := by
  have unit_inj : ∀ {c d : Nat}, c < 16 → d < 16 → Text.hexUnit c = Text.hexUnit d → c = d := by
    intro c d small small' same
    have read := Text.hexDigit?_hexUnit small
    rw [same, Text.hexDigit?_hexUnit small'] at read
    exact (Option.some.inj read).symm
  intro as bs same
  induction as generalizing bs with
  | nil =>
    cases bs with
    | nil => rfl
    | cons b bs => simp [hex] at same
  | cons a as ih =>
    cases bs with
    | nil => simp [hex] at same
    | cons b bs =>
      have boundA := a.toNat_lt
      have boundB := b.toNat_lt
      simp only [hex, List.flatMap_cons, List.cons_append, List.nil_append, List.cons.injEq] at same
      obtain ⟨high, low, rest⟩ := same
      have high := unit_inj (by omega) (by omega) high
      have low := unit_inj (by omega) (by omega) low
      have first : a = b := UInt8.toNat_inj.1 (by omega)
      rw [first, ih rest]

end Sha256

/-- The bundle with its expansion replaced by an image of it. -/
def Bundle.mapExpansion (f : Json → Json) (b : Bundle) : Bundle :=
  { b with expansion := f b.expansion }

def Profile.mapExpansion (f : Json → Json) (p : Profile) : Profile :=
  { p with expansion := f p.expansion }

namespace Registry

/-- The registry with every expansion replaced by an image of it. -/
def mapExpansions (f : Json → Json) (r : Registry) : Registry :=
  ⟨r.dev.mapExpansion f, r.audit.mapExpansion f, r.exec.mapExpansion f,
    r.bundles.map (Bundle.mapExpansion f)⟩

/-- An expansion as its canonical text. -/
def outlined (j : Json) : Json := .str j.canonical

/-- The registry with the canonical texts of its expansions in place of them. -/
def outline (r : Registry) : Registry := r.mapExpansions outlined

section Content

variable {a b : Bundle} {p q : Profile} {r s : Registry}

theorem bundle_canonical_eq_iff :
    a.json.canonical = b.json.canonical ↔ a.mapExpansion outlined = b.mapExpansion outlined := by
  simp only [Bundle.mapExpansion, outlined, Bundle.mk.injEq, Json.str.injEq]
  constructor
  · intro same
    have distinct : ([Text.ofString "id", Text.ofString "name", Text.ofString "domain",
      Text.ofString "task", Text.ofString "keywords", Text.ofString "expansion"]).Nodup := by decide
    have value (key : String) {i j : Json} :=
      Json.canonical_object_inj (i := i) (j := j) (by exact distinct) same key
    exact ⟨Json.canonical_str_inj.1 (value "id" (by simp) (by simp)),
      Json.canonical_str_inj.1 (value "name" (by simp) (by simp)),
      Json.canonical_str_inj.1 (value "domain" (by simp) (by simp)),
      Json.canonical_str_inj.1 (value "task" (by simp) (by simp)),
      Json.canonical_texts_inj.1 (value "keywords" (by simp) (by simp)),
      value "expansion" (by simp) (by simp)⟩
  · rintro ⟨id, name, domain, task, keywords, expansion⟩
    simp only [Bundle.json, Json.object, List.map_cons, List.map_nil, Json.canonical,
      Json.canonicalFields, id, name, domain, task, keywords, expansion]

theorem profile_canonical_eq_iff :
    p.json.canonical = q.json.canonical ↔ p.mapExpansion outlined = q.mapExpansion outlined := by
  simp only [Profile.mapExpansion, outlined, Profile.mk.injEq, Json.str.injEq]
  constructor
  · intro same
    have distinct : ([Text.ofString "id", Text.ofString "audience", Text.ofString "name",
      Text.ofString "expansion"]).Nodup := by decide
    have value (key : String) {i j : Json} :=
      Json.canonical_object_inj (i := i) (j := j) (by exact distinct) same key
    have named : ∀ a b : Audience, a.name = b.name → a = b := by
      intro a b
      cases a <;> cases b <;> decide
    exact ⟨named _ _ (Json.canonical_str_inj.1 (value "audience" (by simp) (by simp))),
      Json.canonical_str_inj.1 (value "name" (by simp) (by simp)),
      value "expansion" (by simp) (by simp)⟩
  · rintro ⟨audience, name, expansion⟩
    simp only [Profile.json, Profile.id, Json.object, List.map_cons, List.map_nil, Json.canonical,
      Json.canonicalFields, audience, name, expansion]

/-- Lists have the same images under two functions that tell the same elements apart. -/
theorem map_eq_map_congr {α β γ : Type} {f : α → β} {g : α → γ} (h : ∀ a b, f a = f b ↔ g a = g b)
    (as bs : List α) : as.map f = bs.map f ↔ as.map g = bs.map g := by
  rw [← List.forall₂_eq_eq_eq, ← List.forall₂_eq_eq_eq, List.forall₂_map_left_iff,
    List.forall₂_map_right_iff, List.forall₂_map_left_iff, List.forall₂_map_right_iff]
  simp only [h]

/-- The canonical text of the content is the same for registries of one outline, and for no
others. -/
theorem content_canonical_eq_iff :
    r.content.canonical = s.content.canonical ↔ r.outline = s.outline := by
  have profiles := map_eq_map_congr (fun p q => @profile_canonical_eq_iff p q) r.profiles
    s.profiles
  have bundles := map_eq_map_congr (fun a b => @bundle_canonical_eq_iff a b) r.bundles
    s.bundles
  have parts : r.outline = s.outline ↔
      r.profiles.map (Profile.mapExpansion outlined) = s.profiles.map (Profile.mapExpansion outlined) ∧
        r.bundles.map (Bundle.mapExpansion outlined) =
          s.bundles.map (Bundle.mapExpansion outlined) := by
    simp [outline, mapExpansions, Registry.profiles, Audience.all, profileFor, and_assoc]
  rw [parts, ← profiles, ← bundles]
  constructor
  · intro same
    have distinct : ([Text.ofString "profiles", Text.ofString "bundles"]).Nodup := by decide
    have value (key : String) {i j : Json} :=
      Json.canonical_object_inj (i := i) (j := j) (by exact distinct) same key
    have fullProfiles : ∀ t : Registry, ∀ j ∈ t.profiles.map Profile.json, j.canonical ≠ [] := fun _ =>
      List.forall_mem_map.2 fun _ _ => Json.canonical_object_ne_nil
    have fullBundles : ∀ t : Registry, ∀ j ∈ t.bundles.map Bundle.json, j.canonical ≠ [] := fun _ =>
      List.forall_mem_map.2 fun _ _ => Json.canonical_object_ne_nil
    have profiles := Json.canonical_arr_inj (fullProfiles r) (fullProfiles s)
      (value "profiles" (by simp) (by simp))
    have bundles := Json.canonical_arr_inj (fullBundles r) (fullBundles s)
      (value "bundles" (by simp) (by simp))
    rw [List.map_map, List.map_map] at profiles bundles
    exact ⟨profiles, bundles⟩
  · rintro ⟨profiles, bundles⟩
    simp only [content, Json.object, List.map_cons, List.map_nil, Json.canonical, Json.canonicalFields,
      Json.canonicalItems_eq, List.map_map, Function.comp_def, profiles, bundles]

end Content

/-- Registries with the same hash have the same outline, unless SHA-256 answers the same for the two
canonical texts. -/
theorem outline_eq_of_hash_eq {r s : Registry}
    (apart : Sha256.digest r.content.canonical.utf8 = Sha256.digest s.content.canonical.utf8 →
      r.content.canonical.utf8 = s.content.canonical.utf8)
    (same : r.hash = s.hash) : r.outline = s.outline := by
  have bytes := apart (Sha256.hex_injective same)
  rw [Text.utf8_inj (Json.wellFormed_canonical _) (Json.wellFormed_canonical _)] at bytes
  exact content_canonical_eq_iff.1 bytes

theorem hash_eq_of_outline_eq {r s : Registry} (same : r.outline = s.outline) : r.hash = s.hash :=
  congrArg Sha256.hexOfText (content_canonical_eq_iff.2 same)

end Registry

end RequestCompiler
