import Mathlib.Data.Finset.Card
import RequestCompiler.Proofs.Matching.Run
import RequestCompiler.Proofs.Registry.Restated
import RequestCompiler.Proofs.Text.Occurrence

/-!
# What a score counts

`Matching.assessment t b` says what a bundle scores on a text, in terms of what occurs in the text in lower
case: its keywords, counted once in whatever case they are written, and the triggers of its domain and of
its task. A bundle of an accepted document scores what it is assessed with (`scoreOn_eq`), on blank texts
too, since no keyword and no trigger is blank.
-/

namespace RequestCompiler.Matching

/-- A trigger of the tag occurs in the text. -/
def Triggered (table : TriggerTable) (tag text : Text) : Prop :=
  ∃ row ∈ table, row.1 = tag ∧ ∃ word ∈ row.2, word <:+: text

instance (table : TriggerTable) (tag text : Text) : Decidable (Triggered table tag text) :=
  inferInstanceAs (Decidable (∃ row ∈ table, row.1 = tag ∧ ∃ word ∈ row.2, word <:+: text))

/-- The keywords of a bundle in lower case, each once, that occur in the text in lower case. -/
def occurring (t : Text) (b : Bundle) : Finset Text :=
  {k ∈ (b.keywords.map Text.lower).toFinset | k <:+: t.lower}

/-- Two points for each keyword that occurs, and one for each tag with a trigger that occurs. -/
def evidence (t : Text) (b : Bundle) : Nat :=
  2 * (occurring t b).card + (if Triggered domainTriggers b.domain t.lower then 1 else 0)
    + (if Triggered taskTriggers b.task t.lower then 1 else 0)

/-- The score of a bundle on a text, and what it comes from. -/
def assessment (t : Text) (b : Bundle) : BundleScore where
  bundleId := b.id
  score := evidence t b
  keywordHits := b.keywords.filter fun k => decide (k.lower <:+: t.lower)
  domainBonus := decide (Triggered domainTriggers b.domain t.lower)
  taskBonus := decide (Triggered taskTriggers b.task t.lower)

/-- In a table that lists each tag once, the row of a tag is found. -/
theorem triggers_iff {table : TriggerTable} (distinct : (table.map Prod.fst).Nodup) {tag text : Text} :
    triggers table tag text = true ↔ Triggered table tag text := by
  unfold triggers Triggered
  cases found : table.find? fun row => row.1 == tag with
  | none =>
    have absent := List.find?_eq_none.1 found
    refine iff_of_false nofun ?_
    rintro ⟨row, member, same, -⟩
    exact absent row member (beq_iff_eq.2 same)
  | some row =>
    have member := List.mem_of_find?_eq_some found
    have own := List.find?_some found
    rw [beq_iff_eq] at own
    simp only [List.any_eq_true, Text.contains_iff]
    constructor
    · intro occurs
      exact ⟨row, member, own, occurs⟩
    · rintro ⟨row', member', own', occurs⟩
      have same : row = row' := List.inj_on_of_nodup_map distinct member member' (own.trans own'.symm)
      exact same ▸ occurs

theorem domainTriggers_distinct : (domainTriggers.map Prod.fst).Nodup := by decide

theorem taskTriggers_distinct : (taskTriggers.map Prod.fst).Nodup := by decide

/-- A text that is more than blanks does not occur in blanks. -/
theorem not_infix_of_blank {k t : Text} (solid : ¬∀ u ∈ k, Text.isBlank u = true)
    (blank : ∀ u ∈ t, Text.isBlank u = true) : ¬k <:+: t :=
  fun occurs => solid fun u member => blank u (occurs.subset member)

/-- No trigger occurs in blanks. -/
theorem not_triggered_of_blank {table : TriggerTable} (listed : table ∈ [domainTriggers, taskTriggers])
    (tag : Text) {text : Text} (blank : ∀ u ∈ text, Text.isBlank u = true) :
    ¬Triggered table tag text := by
  have solid : ∀ table ∈ [domainTriggers, taskTriggers], ∀ row ∈ table, ∀ word ∈ row.2,
      ¬word.isBlankText = true := by decide
  rintro ⟨row, member, -, word, trigger, occurs⟩
  have solid := solid table listed row member word trigger
  rw [Text.isBlankText_iff] at solid
  exact not_infix_of_blank solid blank occurs

section Bonuses

variable (t : Text) (b : Bundle)

theorem score_scoreOn : (scoreOn t b).score = 2 * (scoreOn t b).keywordHits.length +
    (scoreOn t b).domainBonus.toNat + (scoreOn t b).taskBonus.toNat := by
  unfold scoreOn scoreBundle
  split <;> rfl

theorem domainBonus_scoreOn :
    (scoreOn t b).domainBonus = decide (Triggered domainTriggers b.domain t.lower) := by
  unfold scoreOn scoreBundle normalize
  split
  · rename_i blank
    rw [Text.isBlankText_iff] at blank
    exact (decide_eq_false (not_triggered_of_blank (by simp) b.domain blank)).symm
  · rw [Bool.eq_iff_iff, triggers_iff domainTriggers_distinct, decide_eq_true_iff]

theorem taskBonus_scoreOn :
    (scoreOn t b).taskBonus = decide (Triggered taskTriggers b.task t.lower) := by
  unfold scoreOn scoreBundle normalize
  split
  · rename_i blank
    rw [Text.isBlankText_iff] at blank
    exact (decide_eq_false (not_triggered_of_blank (by simp) b.task blank)).symm
  · rw [Bool.eq_iff_iff, triggers_iff taskTriggers_distinct, decide_eq_true_iff]

end Bonuses

section Settled

variable {b : Bundle} (t : Text) (settled : Registry.SettledBundle b)
include settled

/-- No keyword occurs in blanks, in lower case either. -/
theorem not_infix_lower {k text : Text} (member : k ∈ b.keywords)
    (blank : ∀ u ∈ text, Text.isBlank u = true) : ¬k.lower <:+: text := by
  refine not_infix_of_blank (fun lower => ?_) blank
  have own : ∀ u ∈ k, Text.isBlank u = true := Text.blank_of_lower lower
  exact settled.solid k member (Text.trim_eq_nil_iff.2 (Text.isBlankText_iff.2 own))

theorem keywordHits_scoreOn :
    (scoreOn t b).keywordHits = b.keywords.filter fun k => decide (k.lower <:+: t.lower) := by
  unfold scoreOn scoreBundle normalize
  split
  · rename_i blank
    rw [Text.isBlankText_iff] at blank
    refine (List.filter_eq_nil_iff.2 fun k member => ?_).symm
    simpa using not_infix_lower settled member blank
  · refine List.filter_congr fun k _ => ?_
    rw [Bool.eq_iff_iff, Text.contains_iff, decide_eq_true_iff]

/-- The hits are as many as the keywords that occur, since no two of them are equal in lower case. -/
theorem card_occurring : (occurring t b).card = (scoreOn t b).keywordHits.length := by
  have listed : occurring t b = ((scoreOn t b).keywordHits.map Text.lower).toFinset := by
    rw [keywordHits_scoreOn t settled]
    ext k
    simp only [occurring, Finset.mem_filter, List.mem_toFinset, List.mem_map, List.mem_filter,
      decide_eq_true_eq]
    constructor
    · rintro ⟨⟨l, member, rfl⟩, occurs⟩
      exact ⟨l, ⟨member, occurs⟩, rfl⟩
    · rintro ⟨l, ⟨member, occurs⟩, rfl⟩
      exact ⟨⟨l, member, rfl⟩, occurs⟩
  have once : ((scoreOn t b).keywordHits.map Text.lower).Nodup := by
    rw [keywordHits_scoreOn t settled]
    exact settled.distinct.sublist (List.filter_sublist.map _)
  rw [listed, List.toFinset_card_of_nodup once, List.length_map]

/-- A bundle scores what it is assessed with. -/
theorem scoreOn_eq : scoreOn t b = assessment t b := by
  have hits := keywordHits_scoreOn t settled
  have domain := domainBonus_scoreOn t b
  have task := taskBonus_scoreOn t b
  have score : (scoreOn t b).score = evidence t b := by
    have bonus (p : Prop) [Decidable p] : (decide p).toNat = if p then 1 else 0 := Bool.cond_decide p 1 0
    rw [score_scoreOn, ← card_occurring t settled, domain, task, bonus, bonus, evidence]
  show BundleScore.mk (scoreOn t b).bundleId (scoreOn t b).score (scoreOn t b).keywordHits
    (scoreOn t b).domainBonus (scoreOn t b).taskBonus = assessment t b
  rw [bundleId_scoreOn, score, hits, domain, task, assessment]

end Settled

end RequestCompiler.Matching
