import RequestCompiler.Proofs.Text.Words
import RequestCompiler.Registry.Validation

/-!
# The fields of a registry entry

What the checks of an entry's fields accept, said about the entry alone: `OptionalField` for a name
or a tag, `Keywords` for the words that a bundle is found by. Of words that differ in case only the
first is kept (`withoutRepeats`), and `checkKeywords_cases` says that nothing else is changed.
-/

namespace RequestCompiler.Registry

/-- A required text is one that trimming does not use up. -/
theorem solidText?_eq_some_iff {value : Option Json} {t : Text} :
    solidText? value = some t ↔ value = some (.str t) ∧ t.trim ≠ [] := by
  have blank : t.trim ≠ [] ↔ ¬t.isBlankText = true := not_congr Text.trim_eq_nil_iff
  rw [blank]
  unfold solidText?
  split
  · rename_i s
    by_cases blank : s.isBlankText = true
    · rw [if_pos blank]
      refine iff_of_false nofun ?_
      rintro ⟨same, solid⟩
      cases same
      exact solid blank
    · rw [if_neg blank]
      constructor
      · rintro ⟨rfl⟩
        exact ⟨rfl, blank⟩
      · rintro ⟨⟨rfl⟩, -⟩
        rfl
  · rename_i other
    exact iff_of_false nofun fun h => other t h.1

/-- The field is missing, or it holds null or a text. -/
def OptionalField (entry : Json) (field : Text) : Prop :=
  entry.field? field = none ∨ entry.field? field = some .null ∨
    ∃ t, entry.field? field = some (.str t)

/-- The text that a field holds. -/
def fieldText? (entry : Json) (field : Text) : Option Text :=
  match entry.field? field with
  | some (.str t) => some t
  | _ => none

section OptionalText

variable {entry : Json} {field : Text} {defect : Defect}

theorem accepted_optionalText :
    (optionalText entry field defect).accepted = fieldText? entry field := by
  unfold optionalText fieldText? Json.present?
  cases entry.field? field with
  | none => rfl
  | some j => cases j <;> rfl

theorem defects_optionalText :
    (optionalText entry field defect).defects = [] ↔ OptionalField entry field := by
  unfold optionalText OptionalField Json.present?
  cases entry.field? field with
  | none => simp
  | some j => cases j <;> simp

end OptionalText

/-- The entry lists words to be found by: at least one, and none of them blank. -/
structure Keywords (entry : Json) (ks : List Text) : Prop where
  listed : ∃ m, entry.field? "match" = some m ∧ m.field? "keywords_any" = some (.texts ks)
  ne : ks ≠ []
  solid : ∀ k ∈ ks, k.trim ≠ []

/-- The words without each one that equals an earlier one in lower case. -/
def withoutRepeats : List Text → List Text
  | [] => []
  | k :: ks => k :: (withoutRepeats ks).filter fun l => l.lower ≠ k.lower

/-- The words that are left stand in the order of the list. -/
theorem withoutRepeats_sublist (ks : List Text) : (withoutRepeats ks).Sublist ks := by
  induction ks with
  | nil => exact .slnil
  | cons k ks ih => exact (List.filter_sublist.trans ih).cons_cons k

theorem withoutRepeats_ne_nil {ks : List Text} (ne : ks ≠ []) : withoutRepeats ks ≠ [] := by
  cases ks with
  | nil => exact absurd rfl ne
  | cons k ks => exact List.cons_ne_nil _ _

/-- No two of the words that are left are equal in lower case. -/
theorem nodup_lower_withoutRepeats (ks : List Text) :
    ((withoutRepeats ks).map Text.lower).Nodup := by
  induction ks with
  | nil => exact List.nodup_nil
  | cons k ks ih =>
    rw [withoutRepeats, List.map_cons, List.nodup_cons]
    constructor
    · rw [List.mem_map]
      rintro ⟨l, member, same⟩
      simp [same] at member
    · exact ih.sublist (List.filter_sublist.map _)

/-- Every word is still there in some case of its letters. -/
theorem exists_mem_withoutRepeats {ks : List Text} {k : Text} (member : k ∈ ks) :
    ∃ l ∈ withoutRepeats ks, l.lower = k.lower := by
  induction ks with
  | nil => cases member
  | cons first ks ih =>
    rw [withoutRepeats]
    by_cases same : k.lower = first.lower
    · exact ⟨first, List.mem_cons_self, same.symm⟩
    · obtain ⟨l, kept, equal⟩ := ih ((List.mem_cons.1 member).resolve_left fun h => same (h ▸ rfl))
      refine ⟨l, List.mem_cons_of_mem _ (List.mem_filter.2 ⟨kept, ?_⟩), equal⟩
      simpa [equal] using same

/-- Words that differ in lower case all stay. -/
theorem withoutRepeats_eq_self {ks : List Text} (distinct : (ks.map Text.lower).Nodup) :
    withoutRepeats ks = ks := by
  induction ks with
  | nil => rfl
  | cons k ks ih =>
    obtain ⟨fresh, distinct⟩ := List.nodup_cons.1 distinct
    rw [withoutRepeats, ih distinct, List.filter_eq_self.2]
    intro l member
    have unlike : l.lower ≠ k.lower := fun same => fresh (same ▸ List.mem_map_of_mem member)
    exact decide_eq_true unlike

/-- Of the words that follow others, those in another case of these are left out. -/
theorem withoutRepeats_append (ks ls : List Text) : withoutRepeats (ks ++ ls) =
    withoutRepeats ks ++ (withoutRepeats ls).filter fun l => l.lower ∉ ks.map Text.lower := by
  induction ks with
  | nil => simp [withoutRepeats]
  | cons k ks ih =>
    rw [List.cons_append, withoutRepeats, withoutRepeats, ih, List.filter_append, List.filter_filter,
      List.cons_append]
    congr 2
    refine List.filter_congr fun l _ => ?_
    simp [not_or]

/-- A word in another case of an earlier one makes no difference. -/
theorem withoutRepeats_insert {before after : List Text} {k v : Text} (member : k ∈ before)
    (same : v.lower = k.lower) :
    withoutRepeats (before ++ v :: after) = withoutRepeats (before ++ after) := by
  have repeated : v.lower ∈ before.map Text.lower := same ▸ List.mem_map_of_mem member
  rw [withoutRepeats_append, withoutRepeats_append, withoutRepeats,
    List.filter_cons_of_neg (by simpa using repeated), List.filter_filter]
  congr 1
  refine List.filter_congr fun l _ => ?_
  by_cases again : l.lower = v.lower
  · simpa [again] using repeated
  · simp [again]

section Keywords

variable {id : Text} {entry : Json}

/-- Words are checked beside the lower-case forms of those before them. -/
theorem checkKeywordList_texts {ks : List Text} (solid : ∀ k ∈ ks, k.trim ≠ []) (seen : List Text)
    (index : Nat) : checkKeywordList id seen index (ks.map .str) =
      ⟨[], (withoutRepeats ks).filter fun k => !seen.contains k.lower⟩ := by
  induction ks generalizing seen index with
  | nil => rfl
  | cons k ks ih =>
    have rest := ih fun l member => solid l (List.mem_cons_of_mem _ member)
    have text : solidText? (some (.str k)) = some k :=
      solidText?_eq_some_iff.2 ⟨rfl, solid k List.mem_cons_self⟩
    simp only [List.map_cons, checkKeywordList, text, rest]
    by_cases repeated : seen.contains k.lower = true
    · rw [if_pos repeated, withoutRepeats, List.filter_cons_of_neg (by simpa using repeated),
        List.filter_filter]
      congr 1
      refine List.filter_congr fun l _ => ?_
      -- What equals the word in lower case has been seen already.
      by_cases same : l.lower = k.lower
      · simpa [same] using repeated
      · simp [same]
    · rw [if_neg repeated, withoutRepeats, List.filter_cons_of_pos (by simpa using repeated),
        List.filter_filter]
      congr 2
      refine List.filter_congr fun l _ => ?_
      simp [Bool.and_comm]

theorem exists_texts_of_clean {seen : List Text} {index : Nat} {items : List Json}
    (clean : (checkKeywordList id seen index items).defects = []) :
    ∃ ks : List Text, items = ks.map .str ∧ ∀ k ∈ ks, k.trim ≠ [] := by
  induction items generalizing seen index with
  | nil => exact ⟨[], rfl, nofun⟩
  | cons item items ih =>
    unfold checkKeywordList at clean
    cases text : solidText? (some item) with
    | none =>
      simp [text] at clean
    | some k =>
      obtain ⟨value, solid⟩ := solidText?_eq_some_iff.1 text
      have rest : ∃ ks : List Text, items = ks.map .str ∧ ∀ k ∈ ks, k.trim ≠ [] := by
        simp only [text] at clean
        split at clean
        · exact ih clean
        · exact ih clean
      obtain ⟨ks, rfl, others⟩ := rest
      refine ⟨k :: ks, by rw [Option.some.inj value, List.map_cons], ?_⟩
      simpa [solid] using others

theorem keywords_iff {ks : List Text} :
    Keywords entry ks ↔
      ((entry.field? "match").bind fun m => m.field? "keywords_any") = some (.arr (ks.map .str)) ∧
        ks ≠ [] ∧ ∀ k ∈ ks, k.trim ≠ [] := by
  rw [Option.bind_eq_some_iff]
  constructor
  · exact fun h => ⟨h.listed, h.ne, h.solid⟩
  · exact fun ⟨listed, ne, solid⟩ => ⟨listed, ne, solid⟩

/-- The words of an entry are accepted without repeats, or they are missing or unusable. -/
theorem checkKeywords_cases (id : Text) (entry : Json) :
    (∃ ks, Keywords entry ks ∧ checkKeywords id entry = ⟨[], some (withoutRepeats ks)⟩) ∨
      (¬(∃ ks, Keywords entry ks) ∧
        ∃ defects, defects ≠ [] ∧ checkKeywords id entry = ⟨defects, none⟩) := by
  unfold checkKeywords
  simp only [keywords_iff]
  split
  · rename_i first rest listed
    rw [listed]
    by_cases clean : (checkKeywordList id [] 0 (first :: rest)).defects = []
    · left
      obtain ⟨ks, texts, solid⟩ := exists_texts_of_clean clean
      have ne : ks ≠ [] := by
        rintro rfl
        cases texts
      refine ⟨ks, ⟨by rw [texts], ne, solid⟩, ?_⟩
      rw [texts, checkKeywordList_texts solid]
      simp
    · right
      refine ⟨?_, _, clean, ?_⟩
      · rintro ⟨ks, texts, -, solid⟩
        have items := Json.arr.inj (Option.some.inj texts)
        refine clean ?_
        rw [items, checkKeywordList_texts solid]
      · simp [List.isEmpty_iff, clean]
  · rename_i other
    refine .inr ⟨?_, [.keywordsMissing id], List.cons_ne_nil _ _, rfl⟩
    rintro ⟨ks, listed, ne, -⟩
    obtain ⟨k, ks, rfl⟩ := List.exists_cons_of_ne_nil ne
    exact other _ _ listed

end Keywords

end RequestCompiler.Registry
