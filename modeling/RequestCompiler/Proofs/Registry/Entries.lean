import RequestCompiler.Proofs.Registry.Entry

/-!
# The check of a list of registry entries

Profiles and bundles are checked by one recursion over their entries, `checkEntries`. For every kind
of entries, a copy fails exactly at an entry that is `Reached` (`checkEntries_eq_error_iff`), and
otherwise there are no defects exactly if the entries are `Clean`, each of which is then made into
its definition (`checkEntries_eq_ok`).
-/

namespace RequestCompiler.Registry

variable {κ α : Type}

/-- Checks entries from a position on, each after the keys of those before it. -/
def checkEntries (check : List κ → Nat → Json → Except Expansion.CopyFault (Checked (Option α)))
    (key? : Json → Option κ) (seen : List κ) (index : Nat) :
    List Json → Except Expansion.CopyFault (Checked (List α))
  | [] => .ok ⟨[], []⟩
  | entry :: r => do
    let first ← check seen index entry
    let rest ← checkEntries check key? (seen ++ (key? entry).toList) (index + 1) r
    return ⟨first.defects ++ rest.defects, first.accepted.toList ++ rest.accepted⟩

theorem checkProfiles_eq (seen : List Audience) (index : Nat) (entries : List Json) :
    checkProfiles seen index entries =
      checkEntries checkProfile declaredAudience? seen index entries := by
  induction entries generalizing seen index with
  | nil => rfl
  | cons entry entries ih => simp only [checkProfiles, checkEntries, ih]

theorem checkBundles_eq (seen : List Text) (index : Nat) (entries : List Json) :
    checkBundles seen index entries = checkEntries checkBundle declaredBundle? seen index entries := by
  induction entries generalizing seen index with
  | nil => rfl
  | cons entry entries ih => simp only [checkBundles, checkEntries, ih]

/-- The entry has all that a definition is made of, and a key that is neither one of `seen` nor
that of an entry before it. -/
def Reached (K : EntryKind κ α) (seen : List κ) (entries : List Json) (entry : Json) : Prop :=
  ∃ before after k, entries = before ++ entry :: after ∧ K.key? entry = some k ∧ K.Usable entry ∧
    k ∉ seen ∧ ∀ e ∈ before, K.key? e ≠ some k

/-- Each entry can be made into a definition, and their keys are distinct and not of `seen`. -/
def Clean (K : EntryKind κ α) (seen : List κ) (entries : List Json) : Prop :=
  (∀ e ∈ entries, K.Usable e ∧ K.Tidy e) ∧
    ∃ ks : List κ, entries.map K.key? = ks.map some ∧ ks.Nodup ∧ ∀ k ∈ ks, k ∉ seen

section Lists

variable {K : EntryKind κ α} {seen : List κ} {entry : Json} {entries : List Json}

theorem not_reached_nil : ¬Reached K seen [] entry := by
  rintro ⟨before, after, k, split, -⟩
  simp at split

theorem reached_cons_iff {e : Json} :
    Reached K seen (e :: entries) entry ↔
      (entry = e ∧ ∃ k, K.key? e = some k ∧ K.Usable e ∧ k ∉ seen) ∨
        Reached K (seen ++ (K.key? e).toList) entries entry := by
  have member : ∀ k, k ∈ (K.key? e).toList ↔ K.key? e = some k := fun k => by simp
  constructor
  · rintro ⟨before, after, k, split, key, usable, fresh, unlike⟩
    cases before with
    | nil =>
      obtain ⟨rfl, rfl⟩ := List.cons.inj split
      exact .inl ⟨rfl, k, key, usable, fresh⟩
    | cons f before =>
      obtain ⟨rfl, rfl⟩ := List.cons.inj split
      refine .inr ⟨before, after, k, rfl, key, usable, ?_, fun g hg => unlike g (.tail _ hg)⟩
      rw [List.mem_append, member]
      exact fun h => h.elim fresh (unlike e (.head _))
  · rintro (⟨rfl, k, key, usable, fresh⟩ | ⟨before, after, k, rfl, key, usable, fresh, unlike⟩)
    · exact ⟨[], entries, k, rfl, key, usable, fresh, nofun⟩
    · rw [List.mem_append, member, not_or] at fresh
      refine ⟨e :: before, after, k, rfl, key, usable, fresh.1, ?_⟩
      exact List.forall_mem_cons.2 ⟨fresh.2, unlike⟩

theorem clean_nil : Clean K seen [] := ⟨nofun, [], rfl, List.nodup_nil, nofun⟩

theorem clean_cons_iff {e : Json} :
    Clean K seen (e :: entries) ↔ (K.Usable e ∧ K.Tidy e) ∧
      ∃ k, K.key? e = some k ∧ k ∉ seen ∧ Clean K (seen ++ [k]) entries := by
  constructor
  · rintro ⟨each, ks, keys, distinct, fresh⟩
    obtain ⟨k, ks, rfl, key, keys⟩ := List.map_eq_cons_iff.1 keys.symm
    obtain ⟨apart, distinct⟩ := List.nodup_cons.1 distinct
    refine ⟨each e (.head _), k, key.symm, fresh k (.head _), fun f hf => each f (.tail _ hf), ks,
      keys.symm, distinct, fun l hl => ?_⟩
    rw [List.mem_append, List.mem_singleton]
    rintro (old | rfl)
    · exact fresh l (.tail _ hl) old
    · exact apart hl
  · rintro ⟨first, k, key, new, each, ks, keys, distinct, fresh⟩
    refine ⟨List.forall_mem_cons.2 ⟨first, each⟩, k :: ks, by simp [key, keys], ?_, ?_⟩
    · exact List.nodup_cons.2 ⟨fun hk => fresh k hk (by simp), distinct⟩
    · exact List.forall_mem_cons.2 ⟨new, fun l hl old => fresh l hl (List.mem_append_left _ old)⟩

end Lists

section Check

variable {K : EntryKind κ α}
  {check : List κ → Nat → Json → Except Expansion.CopyFault (Checked (Option α))}

/-- After an entry that is checked, what the rest ends with decides. -/
theorem checkEntries_cons_of_ok {seen : List κ} {index : Nat} {e : Json} {entries : List Json}
    {c : Checked (Option α)} (checked : check seen index e = .ok c) :
    checkEntries check K.key? seen index (e :: entries) =
      (checkEntries check K.key? (seen ++ (K.key? e).toList) (index + 1) entries).map fun rest =>
        ⟨c.defects ++ rest.defects, c.accepted.toList ++ rest.accepted⟩ := by
  rw [checkEntries, checked]
  cases checkEntries check K.key? (seen ++ (K.key? e).toList) (index + 1) entries <;> rfl

variable (checks : ∀ seen index entry, Checks K seen entry (check seen index entry))
include checks

/-- The check fails at an entry that is reached and whose expansion cannot be copied. -/
theorem checkEntries_eq_error_iff {seen : List κ} {index : Nat} {entries : List Json} :
    (∃ fault, checkEntries check K.key? seen index entries = .error fault) ↔
      ∃ entry, Reached K seen entries entry ∧ ∃ fault, expansionOf entry = .error fault := by
  induction entries generalizing seen index with
  | nil => simp [checkEntries, not_reached_nil]
  | cons e entries ih =>
    have first := checks seen index e
    have passed : ∀ c, check seen index e = .ok c →
        (∀ k, K.key? e = some k → K.Usable e → k ∉ seen → ∀ fault, expansionOf e ≠ .error fault) →
        ((∃ fault, checkEntries check K.key? seen index (e :: entries) = .error fault) ↔
          ∃ entry, Reached K seen (e :: entries) entry ∧ ∃ fault, expansionOf entry = .error fault) := by
      intro c checked copies
      simp only [checkEntries_cons_of_ok checked, map_eq_error_iff, ih, reached_cons_iff]
      refine exists_congr fun entry => and_congr_left fun ⟨fault, failed⟩ => ?_
      refine ⟨.inr, fun reached => reached.resolve_left ?_⟩
      rintro ⟨rfl, k, key, usable, fresh⟩
      exact copies k key usable fresh fault failed
    generalize result : check seen index e = outcome at first
    cases first with
    | refused ne unusable =>
      exact passed _ result fun k key usable fresh => absurd (unusable k key usable) fresh
    | faulted key fresh usable failed =>
      refine iff_of_true ⟨_, by rw [checkEntries, result]; rfl⟩ ⟨e, ?_, _, failed⟩
      exact reached_cons_iff.2 (.inl ⟨rfl, _, key, usable, fresh⟩)
    | defined key fresh usable tidy copied makes =>
      exact passed _ result fun _ _ _ _ fault failed => nomatch copied.symm.trans failed

/-- Without a fault, there are no defects exactly if the entries are clean, and then each of them
is made into its definition. -/
theorem checkEntries_eq_ok {seen : List κ} {index : Nat} {entries : List Json}
    {c : Checked (List α)} (checked : checkEntries check K.key? seen index entries = .ok c) :
    (c.defects = [] ↔ Clean K seen entries) ∧
      (c.defects = [] → List.Forall₂ K.Makes entries c.accepted) := by
  induction entries generalizing seen index c with
  | nil =>
    obtain rfl := Except.ok.inj checked
    exact ⟨iff_of_true rfl clean_nil, fun _ => .nil⟩
  | cons e entries ih =>
    have first := checks seen index e
    generalize result : check seen index e = outcome at first
    rw [clean_cons_iff]
    cases first with
    | refused ne unusable =>
      rw [checkEntries_cons_of_ok result, map_eq_ok_iff] at checked
      obtain ⟨rest, -, rfl⟩ := checked
      have defective : ¬(_ ++ rest.defects = []) := fun none => ne (List.append_eq_nil_iff.1 none).1
      refine ⟨iff_of_false defective ?_, fun none => absurd none defective⟩
      rintro ⟨⟨usable, -⟩, k, key, fresh, -⟩
      exact fresh (unusable k key usable)
    | faulted key fresh usable failed =>
      rw [checkEntries, result] at checked
      cases checked
    | @defined k e' defects a key fresh usable tidy copied makes =>
      rw [checkEntries_cons_of_ok result, map_eq_ok_iff, key] at checked
      obtain ⟨rest, later, rfl⟩ := checked
      obtain ⟨clean, made⟩ := ih later
      rw [List.append_eq_nil_iff, tidy, clean]
      constructor
      · constructor
        · exact fun ⟨fine, others⟩ => ⟨⟨usable, fine⟩, k, key, fresh, others⟩
        · rintro ⟨⟨-, fine⟩, k', key', -, others⟩
          obtain rfl := Option.some.inj (key.symm.trans key')
          exact ⟨fine, others⟩
      · exact fun ⟨_, others⟩ => .cons makes (made (clean.2 others))

end Check

end RequestCompiler.Registry
