import Mathlib.Data.List.Induction
import RequestCompiler.Matching

/-!
# The selected score

`Leads` says which element of a list a selection by points takes: the first of those with the
most points, if these are any. `best?_eq_some_iff` and `best?_eq_none_iff` say that the fold over
the scores selects so, and `positiveScores_eq_cons` and `head?_positiveScores` that the second
place of the positive scores is the best one among the others.
-/

namespace RequestCompiler.Matching

/-- The element has points, more than each one before it and no fewer than each one after it. -/
structure Leads {α : Type} (points : α → Nat) (as before : List α) (a : α) (after : List α) :
    Prop where
  split : as = before ++ a :: after
  positive : 0 < points a
  above : ∀ x ∈ before, points x < points a
  atLeast : ∀ x ∈ after, points x ≤ points a

namespace Leads

variable {α β : Type} {points : α → Nat} {as before after : List α} {a : α}

theorem mem (h : Leads points as before a after) : a ∈ as := by
  rw [h.split]
  simp

/-- No element has more points. -/
theorem le (h : Leads points as before a after) : ∀ x ∈ as, points x ≤ points a := by
  intro x hx
  rw [h.split, List.mem_append, List.mem_cons] at hx
  rcases hx with hx | rfl | hx
  · exact Nat.le_of_lt (h.above x hx)
  · exact Nat.le_refl _
  · exact h.atLeast x hx

theorem concat (h : Leads points as before a after) {x : α} (hx : points x ≤ points a) :
    Leads points (as ++ [x]) before a (after ++ [x]) where
  split := by simp [h.split]
  positive := h.positive
  above := h.above
  atLeast := by
    intro y hy
    rcases List.mem_append.1 hy with hy | hy
    · exact h.atLeast y hy
    · exact List.mem_singleton.1 hy ▸ hx

theorem last {x : α} (positive : 0 < points x) (above : ∀ y ∈ as, points y < points x) :
    Leads points (as ++ [x]) as x [] :=
  ⟨rfl, positive, above, nofun⟩

/-- At most one place of a list leads it. -/
theorem unique {before' after' : List α} {a' : α} (h : Leads points as before a after)
    (h' : Leads points as before' a' after') : before = before' ∧ a = a' ∧ after = after' := by
  have later : ∀ {b c b' c' : List α} {x x' : α}, Leads points as b x c → Leads points as b' x' c' →
      ∀ u, b' = b ++ u → x :: c = u ++ x' :: c' → u = [] := by
    -- Of two leading places the earlier would have both fewer and no fewer points.
    intro b c b' c' x x' h h' u hb hc
    cases u with
    | nil => rfl
    | cons y u =>
      obtain ⟨rfl, rfl⟩ := List.cons.inj hc
      have less := h'.above x (by simp [hb])
      have notLess := h.atLeast x' (by simp)
      exact absurd less (Nat.not_lt.2 notLess)
  rcases List.append_eq_append_iff.1 (h.split.symm.trans h'.split) with ⟨u, hb, hc⟩ | ⟨u, hb, hc⟩
  · obtain rfl := later h h' u hb hc
    simpa [hb] using hc
  · obtain rfl := later h' h u hb hc
    simpa [hb, eq_comm] using hc

/-- Under distinct keys, the others of a list are those with another key. -/
theorem mem_others {κ : Type} {key : α → κ} (h : Leads points as before a after)
    (distinct : (as.map key).Nodup) {x : α} :
    x ∈ before ++ after ↔ x ∈ as ∧ key x ≠ key a := by
  have moved : as.Perm (a :: (before ++ after)) := h.split ▸ List.perm_middle
  have apart := (List.nodup_cons.1 ((moved.map key).nodup_iff.1 distinct)).1
  rw [moved.mem_iff, List.mem_cons]
  constructor
  · exact fun hx => ⟨.inr hx, fun same => apart (same ▸ List.mem_map_of_mem hx)⟩
  · rintro ⟨rfl | hx, differ⟩
    · exact absurd rfl differ
    · exact hx

theorem map {points : β → Nat} {f : α → β} (h : Leads (points ∘ f) as before a after) :
    Leads points (as.map f) (before.map f) (f a) (after.map f) where
  split := by simp [h.split]
  positive := h.positive
  above := by simpa using h.above
  atLeast := by simpa using h.atLeast

/-- What leads the images is the image of what leads. -/
theorem of_map {points : β → Nat} {f : α → β} {bs cs : List β} {b : β}
    (h : Leads points (as.map f) bs b cs) :
    ∃ before a after, bs = before.map f ∧ b = f a ∧ cs = after.map f ∧
      Leads (points ∘ f) as before a after := by
  obtain ⟨before, rest, rfl, rfl, tail⟩ := List.map_eq_append_iff.1 h.split
  obtain ⟨a, after, rfl, rfl, rfl⟩ := List.map_eq_cons_iff.1 tail
  exact ⟨before, a, after, rfl, rfl, rfl, rfl, h.positive, by simpa using h.above,
    by simpa using h.atLeast⟩

end Leads

/-- One more score is selected if it is above what was. -/
theorem best?_concat (ss : List BundleScore) (s : BundleScore) :
    best? (ss ++ [s]) =
      if s.score = 0 then best? ss
      else match best? ss with
        | none => some s
        | some b => if b.score < s.score then some s else some b := by
  rw [best?, List.foldl_append]
  rfl

/-- The fold selects what leads, and nothing if no score is above zero. -/
theorem best?_spec (scores : List BundleScore) :
    (best? scores = none ∧ ∀ s ∈ scores, s.score = 0) ∨
      ∃ before b after, best? scores = some b ∧ Leads (·.score) scores before b after := by
  -- The fold meets the last score last, so the lists grow at their end.
  induction scores using List.reverseRecOn with
  | nil => exact .inl ⟨rfl, nofun⟩
  | append_singleton ss s ih =>
    rw [best?_concat]
    by_cases zero : s.score = 0
    · simp only [zero, if_true]
      rcases ih with ⟨none, zeros⟩ | ⟨before, b, after, some, leads⟩
      · exact .inl ⟨none, by simpa [or_imp, forall_and, zero] using zeros⟩
      · exact .inr ⟨before, b, after ++ [s], some, leads.concat (zero ▸ Nat.zero_le _)⟩
    · have positive := Nat.pos_of_ne_zero zero
      simp only [zero, if_false]
      right
      rcases ih with ⟨none, zeros⟩ | ⟨before, b, after, some, leads⟩
      · exact ⟨ss, s, [], by rw [none], .last positive fun t ht => zeros t ht ▸ positive⟩
      · rw [some]
        by_cases more : b.score < s.score
        · have above := fun t ht => Nat.lt_of_le_of_lt (leads.le t ht) more
          exact ⟨ss, s, [], if_pos more, .last positive above⟩
        · exact ⟨before, b, after ++ [s], if_neg more, leads.concat (Nat.not_lt.1 more)⟩

theorem best?_eq_none_iff {scores : List BundleScore} :
    best? scores = none ↔ ∀ s ∈ scores, s.score = 0 := by
  rcases best?_spec scores with ⟨none, zeros⟩ | ⟨before, b, after, some, leads⟩
  · exact iff_of_true none zeros
  · refine iff_of_false (by simp [some]) fun zeros => ?_
    exact absurd (zeros b leads.mem) (Nat.ne_of_gt leads.positive)

theorem best?_eq_some_iff {scores : List BundleScore} {b : BundleScore} :
    best? scores = some b ↔ ∃ before after, Leads (·.score) scores before b after := by
  rcases best?_spec scores with ⟨none, zeros⟩ | ⟨before, b', after, some, leads⟩
  · refine iff_of_false (by simp [none]) fun ⟨_, _, leads⟩ => ?_
    exact absurd (zeros b leads.mem) (Nat.ne_of_gt leads.positive)
  · rw [some, Option.some.injEq]
    exact ⟨fun same => same ▸ ⟨before, after, leads⟩, fun ⟨_, _, other⟩ => (leads.unique other).2.1⟩

theorem positiveScores_perm (scores : List BundleScore) :
    (positiveScores scores).Perm ((scores.map (·.score)).filter (0 < ·)) := List.mergeSort_perm _ _

theorem positiveScores_descending (scores : List BundleScore) :
    (positiveScores scores).Pairwise (· ≥ ·) := by
  have trans : ∀ a b c : Nat, decide (b ≤ a) = true → decide (c ≤ b) = true →
      decide (c ≤ a) = true := by simpa using fun a b c h h' => Nat.le_trans h' h
  have total : ∀ a b : Nat, (decide (b ≤ a) || decide (a ≤ b)) = true := by
    simpa using fun a b => Nat.le_total b a
  exact (List.pairwise_mergeSort trans total _).imp of_decide_eq_true

theorem mem_positiveScores {scores : List BundleScore} {n : Nat} :
    n ∈ positiveScores scores ↔ 0 < n ∧ ∃ s ∈ scores, s.score = n := by
  rw [(positiveScores_perm scores).mem_iff, List.mem_filter, List.mem_map, decide_eq_true_iff,
    and_comm]

/-- The positive scores start with that of the leading one; the rest are those of the others. -/
theorem positiveScores_eq_cons {scores before after : List BundleScore} {b : BundleScore}
    (h : Leads (·.score) scores before b after) :
    positiveScores scores = b.score :: positiveScores (before ++ after) := by
  have others := positiveScores_perm (before ++ after)
  have same : (b.score :: positiveScores (before ++ after)).Perm
      ((scores.map (·.score)).filter (0 < ·)) := by
    refine (others.cons b.score).trans ?_
    rw [← List.filter_cons_of_pos (by simpa using h.positive), ← List.map_cons, h.split]
    exact (List.perm_middle.symm.map _).filter _
  have descending : (b.score :: positiveScores (before ++ after)).Pairwise (· ≥ ·) := by
    refine List.pairwise_cons.2 ⟨fun n hn => ?_, positiveScores_descending _⟩
    obtain ⟨-, s, hs, rfl⟩ := mem_positiveScores.1 hn
    rw [List.mem_append] at hs
    exact hs.elim (fun hs => Nat.le_of_lt (h.above s hs)) (h.atLeast s)
  exact List.Perm.eq_of_pairwise (fun _ _ _ _ le ge => Nat.le_antisymm ge le)
    (positiveScores_descending scores) descending ((positiveScores_perm scores).trans same.symm)

/-- The first of the positive scores is the greatest. -/
theorem head?_positiveScores {scores : List BundleScore} {n : Nat} :
    (positiveScores scores).head? = some n ↔
      0 < n ∧ (∃ s ∈ scores, s.score = n) ∧ ∀ s ∈ scores, s.score ≤ n := by
  have descending := positiveScores_descending scores
  have members := @mem_positiveScores scores
  cases sorted : positiveScores scores with
  | nil =>
    refine iff_of_false nofun fun ⟨positive, attained, _⟩ => ?_
    exact List.not_mem_nil (sorted ▸ members.2 ⟨positive, attained⟩)
  | cons m ms =>
    rw [sorted, List.pairwise_cons] at descending
    rw [sorted] at members
    rw [List.head?_cons, Option.some.injEq, ← and_assoc, ← members]
    constructor
    · rintro rfl
      refine ⟨List.mem_cons_self, fun s hs => ?_⟩
      rcases Nat.eq_zero_or_pos s.score with zero | positive
      · omega
      · rcases List.mem_cons.1 (members.2 ⟨positive, s, hs, rfl⟩) with same | later
        · exact Nat.le_of_eq same
        · exact descending.1 _ later
    · rintro ⟨hn, most⟩
      obtain ⟨-, s, hs, rfl⟩ := members.1 List.mem_cons_self
      rcases List.mem_cons.1 hn with same | later
      · exact same.symm
      · exact Nat.le_antisymm (most s hs) (descending.1 _ later)

/-- What a match takes from the score that leads. -/
theorem ofScores_eq (r : Registry) {scores before after : List BundleScore} {b : BundleScore}
    (h : Leads (·.score) scores before b after) :
    ofScores r scores =
      let second := (positiveScores (before ++ after)).head?
      let ambiguous := second.any fun s => b.score - s ≤ ambiguityGap
      ⟨r.bundle? b.bundleId, b.score, second, ambiguous,
        if ambiguous then b.score - ambiguityPenalty else b.score,
        b.keywordHits, b.domainBonus, b.taskBonus, scores⟩ := by
  have selected := best?_eq_some_iff.2 ⟨before, after, h⟩
  have second : (positiveScores scores)[1]? = (positiveScores (before ++ after)).head? := by
    rw [positiveScores_eq_cons h, List.getElem?_cons_succ, List.head?_eq_getElem?]
  simp only [ofScores, selected, second]

/-- A match is ambiguous if one of the other scores is positive and within one point. -/
theorem ambiguous_iff {r : Registry} {scores before after : List BundleScore} {b : BundleScore}
    (h : Leads (·.score) scores before b after) :
    (ofScores r scores).ambiguous = true ↔
      ∃ s ∈ before ++ after, 0 < s.score ∧ b.score ≤ s.score + 1 := by
  have members := @mem_positiveScores (before ++ after)
  rw [ofScores_eq r h]
  have gap : ambiguityGap = 1 := rfl
  simp only [Option.any_eq_true, decide_eq_true_eq]
  constructor
  · rintro ⟨n, first, close⟩
    obtain ⟨positive, ⟨s, hs, rfl⟩, -⟩ := head?_positiveScores.1 first
    exact ⟨s, hs, positive, by omega⟩
  · rintro ⟨s, hs, positive, close⟩
    have listed := members.2 ⟨positive, s, hs, rfl⟩
    cases first : (positiveScores (before ++ after)).head? with
    | none => exact absurd listed (List.head?_eq_none_iff.1 first ▸ List.not_mem_nil)
    | some n =>
      have most := (head?_positiveScores.1 first).2.2 s hs
      exact ⟨n, rfl, by omega⟩

end RequestCompiler.Matching
