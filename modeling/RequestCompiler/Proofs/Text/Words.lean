import Mathlib.Data.List.DropRight
import RequestCompiler.Delta

/-!
# Trimming, and the words of a trimmed text

`Spaced tail tokens` says how a text continues behind its first word: for each token in turn one
or more blanks and then the token. `Spaced.words` reads the tokens back, and `exists_spaced`
finds them in every text that does not end in a blank, so on trimmed texts `words` is exactly
the inverse of `Spaced`.
-/

namespace RequestCompiler

theorem isSolid_iff {t : Text} : isSolid t = true ↔ t ≠ [] ∧ ∀ u ∈ t, Text.isBlank u = false := by
  simp [isSolid]

namespace Text

theorem trim_eq (t : Text) : t.trim = (t.dropWhile isBlank).rdropWhile isBlank := rfl

theorem isBlankText_iff {t : Text} : t.isBlankText = true ↔ ∀ u ∈ t, isBlank u = true :=
  List.all_eq_true

/-- Nothing is left of exactly the texts that hold no unit but blanks. -/
theorem trim_eq_nil_iff {t : Text} : t.trim = [] ↔ t.isBlankText = true := by
  rw [trim_eq, List.rdropWhile_eq_nil_iff, isBlankText_iff]
  constructor
  · intro h u hu
    rw [← List.takeWhile_append_dropWhile (p := isBlank) (l := t)] at hu
    rcases List.mem_append.1 hu with hu | hu
    · exact List.mem_takeWhile_imp hu
    · exact h u hu
  · intro h u hu
    exact h u ((List.dropWhile_sublist isBlank).mem hu)

/-- A trimmed text does not end in a blank. -/
theorem isBlank_getLast_trim {t : Text} : ∀ u ∈ t.trim.getLast?, isBlank u = false := by
  intro u hu
  obtain ⟨ne, rfl⟩ := List.mem_getLast?_eq_getLast hu
  exact Bool.eq_false_iff.2 (List.rdropWhile_last_not isBlank (t.dropWhile isBlank) ne)

/-- A trimmed text does not start with a blank. -/
theorem isBlank_head_trim {t : Text} : ∀ u ∈ t.trim.head?, isBlank u = false := by
  intro u first
  obtain ⟨s, text⟩ := List.head?_eq_some_iff.1 first
  obtain ⟨r, whole⟩ := List.rdropWhile_prefix isBlank (t.dropWhile isBlank)
  rw [← trim_eq, text] at whole
  have solid := List.head?_dropWhile_not isBlank t
  simpa [← whole] using solid

/-- A text that neither starts nor ends in a blank is trimmed. -/
theorem trim_eq_self {t : Text} (first : ∀ u ∈ t.head?, isBlank u = false)
    (last : ∀ u ∈ t.getLast?, isBlank u = false) : t.trim = t := by
  have start : t.dropWhile isBlank = t := by
    cases t with
    | nil => rfl
    | cons u r => exact List.dropWhile_cons_of_neg (by simp [first u rfl])
  rw [trim_eq, start, List.rdropWhile_eq_self_iff]
  intro ne
  simp [last _ (List.getLast?_eq_some_getLast ne)]

/-- A text without blanks is trimmed. -/
theorem trim_eq_self_of_solid {t : Text} (h : ∀ u ∈ t, isBlank u = false) : t.trim = t :=
  trim_eq_self (fun u hu => h u (List.mem_of_mem_head? hu))
    (fun u hu => h u (List.mem_of_getLast? hu))

/-- Blanks around a text do not matter to what is left of it. -/
theorem trim_surrounded {x t y : Text} (before : ∀ u ∈ x, isBlank u = true)
    (behind : ∀ u ∈ y, isBlank u = true) : (x ++ t ++ y).trim = t.trim := by
  have start : (x ++ t ++ y).dropWhile isBlank = (t ++ y).dropWhile isBlank := by
    rw [List.append_assoc, List.dropWhile_append_of_pos before]
  have last (s : Text) : (s ++ y).rdropWhile isBlank = s.rdropWhile isBlank := by
    rw [List.rdropWhile, List.reverse_append, List.dropWhile_append_of_pos (by simpa using behind)]
    rfl
  rw [trim_eq, trim_eq, start, List.dropWhile_append]
  split
  · rename_i none
    rw [List.isEmpty_iff.1 none, List.dropWhile_eq_nil_iff.2 behind]
  · exact last _

/-- The first word starts as a text does that starts with no blank. -/
theorem head?_words {t : Text} (first : ∀ u ∈ t.head?, isBlank u = false) :
    (t.words.headD []).head? = t.head? := by
  cases t with
  | nil => rfl
  | cons u t =>
    have solid := first u rfl
    rw [words, wordsFrom, if_neg (by simp [solid])]
    cases wordsFrom false t <;> rfl

/-- For each token in turn, one or more blanks and the token. -/
inductive Spaced : Text → List Text → Prop
  | nil : Spaced [] []
  | cons {gap token tail : Text} {tokens : List Text} (gap_ne : gap ≠ [])
      (gap_blank : ∀ u ∈ gap, isBlank u = true) (solid : isSolid token = true)
      (rest : Spaced tail tokens) : Spaced (gap ++ token ++ tail) (token :: tokens)

theorem Spaced.solid {tail : Text} {tokens : List Text} (h : Spaced tail tokens) :
    ∀ t ∈ tokens, isSolid t = true := by
  induction h with
  | nil => simp
  | cons _ _ solid _ ih => simpa [solid] using ih

theorem wordsFrom_blanks {gap : Text} (h : ∀ u ∈ gap, isBlank u = true) (t : Text) :
    wordsFrom true (gap ++ t) = wordsFrom true t := by
  induction gap with
  | nil => rfl
  | cons u gap ih =>
    have hu : isBlank u = true := h u (by simp)
    simp [wordsFrom, hu, ih fun v hv => h v (by simp [hv])]

theorem words_blanks {gap : Text} (ne : gap ≠ []) (h : ∀ u ∈ gap, isBlank u = true) (t : Text) :
    words (gap ++ t) = [] :: wordsFrom true t := by
  cases gap with
  | nil => exact absurd rfl ne
  | cons u gap =>
    have hu : isBlank u = true := h u (by simp)
    have hr := wordsFrom_blanks (fun v hv => h v (List.mem_cons_of_mem u hv)) t
    simp [words, wordsFrom, hu, hr]

/-- Units that are no blanks belong to the first word. -/
theorem words_append_solid {w t p : Text} {ps : List Text} (hw : ∀ u ∈ w, isBlank u = false)
    (ht : words t = p :: ps) : words (w ++ t) = (w ++ p) :: ps := by
  induction w with
  | nil => exact ht
  | cons u w ih =>
    have hu : isBlank u = false := hw u (by simp)
    have hr : wordsFrom false (w ++ t) = (w ++ p) :: ps := ih fun v hv => hw v (by simp [hv])
    simp [words, wordsFrom, hu, hr, consFirst]

theorem wordsFrom_solid {token : Text} (h : isSolid token = true) (t : Text) :
    wordsFrom true (token ++ t) = words (token ++ t) := by
  obtain ⟨ne, solid⟩ := isSolid_iff.1 h
  cases token with
  | nil => exact absurd rfl ne
  | cons u token =>
    have hu : isBlank u = false := solid u (by simp)
    simp [words, wordsFrom, hu]

/-- The tokens of a spaced text are its words behind the first one, which is empty. -/
theorem Spaced.words {tail : Text} {tokens : List Text} (h : Spaced tail tokens) :
    words tail = [] :: tokens := by
  induction h with
  | nil => rfl
  | @cons gap token tail tokens gap_ne gap_blank solid _ ih =>
    have first := words_append_solid (isSolid_iff.1 solid).2 ih
    rw [List.append_assoc, words_blanks gap_ne gap_blank, wordsFrom_solid solid, first,
      List.append_nil]

/-- Every text that does not end in a blank is a first word and a spaced rest. -/
theorem exists_spaced {t : Text} (last : ∀ u ∈ t.getLast?, isBlank u = false) :
    ∃ w tail tokens, t = w ++ tail ∧ (∀ u ∈ w, isBlank u = false) ∧ Spaced tail tokens := by
  induction t with
  | nil => exact ⟨[], [], [], rfl, by simp, .nil⟩
  | cons u r ih =>
    obtain ⟨w, tail, tokens, rfl, hw, spaced⟩ := ih fun v hv => last v (by
      rw [List.getLast?_cons, Option.mem_def.1 hv]; rfl)
    cases hu : isBlank u with
    | false => exact ⟨u :: w, tail, tokens, rfl, by simpa [hu] using hw, spaced⟩
    | true =>
      by_cases empty : w = []
      -- The blank joins the gap that follows it; there is one, since it is not the last unit.
      · subst empty
        cases spaced with
        | nil => simp [hu] at last
        | @cons gap token tail tokens gap_ne gap_blank solid rest =>
          have longer : ∀ v ∈ u :: gap, isBlank v = true := by simpa [hu] using gap_blank
          exact ⟨[], u :: (gap ++ token ++ tail), token :: tokens, rfl, by simp,
            .cons (by simp) longer solid rest⟩
      · have blank : ∀ v ∈ [u], isBlank v = true := by simp [hu]
        exact ⟨[], u :: (w ++ tail), w :: tokens, rfl, by simp,
          .cons (by simp) blank (isSolid_iff.2 ⟨empty, hw⟩) spaced⟩

end Text

end RequestCompiler
