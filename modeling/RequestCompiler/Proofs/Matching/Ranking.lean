import RequestCompiler.Proofs.Matching.Score

/-!
# Places in the order of registration

A match, told from the list of scores in the order of registration: the first place of the greatest score
(`FirstGreatest`) is that of the selected bundle, and the scores at the other places (`Elsewhere`) decide
on the second score and on ambiguity. `run_ranked` says so for every registry and text.
-/

namespace RequestCompiler.Matching

/-- The greatest number of a list is `m`, and `k` is the first place where it stands. -/
structure FirstGreatest (s : List Nat) (k m : Nat) : Prop where
  attained : s[k]? = some m
  greatest : ∀ n ∈ s, n ≤ m
  first : ∀ j < k, s[j]? ≠ some m

/-- There is one greatest number, and one first place where it stands. -/
theorem FirstGreatest.unique {s : List Nat} {k k' m m' : Nat} (h : FirstGreatest s k m)
    (h' : FirstGreatest s k' m') : k = k' ∧ m = m' := by
  have most := h'.greatest m (List.mem_of_getElem? h.attained)
  have most' := h.greatest m' (List.mem_of_getElem? h'.attained)
  obtain rfl : m = m' := Nat.le_antisymm most most'
  refine ⟨?_, rfl⟩
  rcases Nat.lt_trichotomy k k' with less | same | more
  · exact absurd h.attained (h'.first k less)
  · exact same
  · exact absurd h'.attained (h.first k' more)

/-- The number stands at another place than `k`. -/
def Elsewhere (s : List Nat) (k n : Nat) : Prop := ∃ j, j ≠ k ∧ s[j]? = some n

/-- The match of a list of scores in which `m` is the greatest and `k` its first place. -/
structure Ranked (r : Registry) (t : Text) (s : List Nat) (k m : Nat) : Prop where
  /-- The selected bundle is the registered one at the place. -/
  bundle : ∃ b, r.bundles[k]? = some b ∧ (run r t).bundle = some b
  topScore : (run r t).topScore = m
  /-- What was found is what was found for that bundle. -/
  found : ∃ score, (run r t).scores[k]? = some score ∧ (run r t).keywordHits = score.keywordHits ∧
    (run r t).domainBonus = score.domainBonus ∧ (run r t).taskBonus = score.taskBonus
  /-- The second score is the greatest positive one at the other places. -/
  secondScore : ∀ n, (run r t).secondScore = some n ↔
    0 < n ∧ Elsewhere s k n ∧ ∀ n', Elsewhere s k n' → n' ≤ n
  noSecondScore : (run r t).secondScore = none ↔ ∀ n, Elsewhere s k n → n = 0
  ambiguous : (run r t).ambiguous = true ↔ ∃ n, Elsewhere s k n ∧ 0 < n ∧ m - 1 ≤ n
  adjustedScore : (run r t).adjustedScore = if (run r t).ambiguous then m - 1 else m

/-- Nothing was matched. -/
structure Unmatched (m : Match) : Prop where
  bundle : m.bundle = none
  topScore : m.topScore = 0
  adjustedScore : m.adjustedScore = 0
  secondScore : m.secondScore = none
  ambiguous : m.ambiguous = false

section Leading

variable {r : Registry} {t : Text} {before after : List Bundle} {b : Bundle}

variable (h : Leads (points t) r.bundles before b after)
include h

/-- What leads stands at the first place of the greatest score. -/
theorem firstGreatest_of_leads :
    FirstGreatest (r.bundles.map (points t)) before.length (points t b) where
  attained := by simp [h.split]
  greatest := List.forall_mem_map.2 h.le
  first := by
    intro j less same
    rw [h.split, List.map_append, List.getElem?_append_left (by simpa using less)] at same
    obtain ⟨x, member, equal⟩ := List.mem_map.1 (List.mem_of_getElem? same)
    exact Nat.ne_of_lt (h.above x member) equal

/-- At the other places stand the scores of the other bundles. -/
theorem elsewhere_iff {n : Nat} : Elsewhere (r.bundles.map (points t)) before.length n ↔
    ∃ s ∈ (before ++ after).map (scoreOn t), s.score = n := by
  have erased : (r.bundles.map (points t)).eraseIdx before.length =
      (before ++ after).map (points t) := by
    rw [List.eraseIdx_map, h.split, List.eraseIdx_append_of_length_le (Nat.le_refl _), Nat.sub_self,
      List.eraseIdx_cons_zero]
  unfold Elsewhere
  rw [← List.mem_eraseIdx_iff_getElem?, erased, List.mem_map]
  simp only [List.mem_map, exists_exists_and_eq_and]
  rfl

theorem run_secondScore : (run r t).secondScore =
    (positiveScores ((before ++ after).map (scoreOn t))).head? := by
  rw [run, ofScores_eq r (leads_scores h), List.map_append]

theorem run_secondScore_eq_some_iff {n : Nat} : (run r t).secondScore = some n ↔
    0 < n ∧ Elsewhere (r.bundles.map (points t)) before.length n ∧
      ∀ n', Elsewhere (r.bundles.map (points t)) before.length n' → n' ≤ n := by
  rw [run_secondScore h, head?_positiveScores]
  simp only [elsewhere_iff h]
  constructor
  · rintro ⟨positive, attained, most⟩
    refine ⟨positive, attained, ?_⟩
    rintro n' ⟨s, member, rfl⟩
    exact most s member
  · rintro ⟨positive, attained, most⟩
    exact ⟨positive, attained, fun s member => most s.score ⟨s, member, rfl⟩⟩

theorem run_secondScore_eq_none_iff : (run r t).secondScore = none ↔
    ∀ n, Elsewhere (r.bundles.map (points t)) before.length n → n = 0 := by
  rw [run_secondScore h, List.head?_eq_none_iff, List.eq_nil_iff_forall_not_mem]
  simp only [mem_positiveScores, elsewhere_iff h]
  constructor
  · intro none n attained
    by_contra positive
    exact none n ⟨Nat.pos_of_ne_zero positive, attained⟩
  · rintro zeros n ⟨positive, attained⟩
    exact absurd (zeros n attained) (Nat.ne_of_gt positive)

theorem run_ambiguous_iff_elsewhere : (run r t).ambiguous = true ↔
    ∃ n, Elsewhere (r.bundles.map (points t)) before.length n ∧ 0 < n ∧ points t b - 1 ≤ n := by
  rw [run, ambiguous_iff (leads_scores h), ← List.map_append]
  simp only [elsewhere_iff h]
  constructor
  · rintro ⟨s, member, positive, close⟩
    have close' : points t b ≤ s.score + 1 := close
    exact ⟨s.score, ⟨s, member, rfl⟩, positive, by omega⟩
  · rintro ⟨_, ⟨s, member, rfl⟩, positive, close⟩
    refine ⟨s, member, positive, ?_⟩
    show points t b ≤ s.score + 1
    omega

theorem ranked_of_leads (distinct : (r.bundles.map Bundle.id).Nodup) :
    Ranked r t (r.bundles.map (points t)) before.length (points t b) where
  bundle := ⟨b, by simp [h.split], run_bundle h distinct⟩
  topScore := run_topScore h
  found := by
    refine ⟨scoreOn t b, ?_⟩
    rw [run, ofScores_eq r (leads_scores h)]
    exact ⟨by simp [(leads_scores h).split], rfl, rfl, rfl⟩
  secondScore _ := run_secondScore_eq_some_iff h
  noSecondScore := run_secondScore_eq_none_iff h
  ambiguous := run_ambiguous_iff_elsewhere h
  adjustedScore := run_adjustedScore h

end Leading

theorem unmatched_of_zero {r : Registry} {t : Text} (zeros : ∀ b ∈ r.bundles, points t b = 0) :
    Unmatched (run r t) := by
  rw [run_of_zero zeros]
  exact ⟨rfl, rfl, rfl, rfl, rfl⟩

/-- The scores of the bundles are what occurs of their words and triggers in the request. If all are
zero nothing is matched; otherwise the first bundle with the greatest one is selected, and the others
decide on ambiguity. -/
theorem run_ranked {document : Json} {r : Registry} (accepted : Registry.ofDocument document = .ok r)
    (t : Text) :
    (run r t).scores = r.bundles.map (assessment t) ∧
      ((∀ b ∈ r.bundles, evidence t b = 0) ∧ Unmatched (run r t) ∨
        ∃ k m, FirstGreatest (r.bundles.map (evidence t)) k m ∧ 0 < m ∧
          Ranked r t (r.bundles.map (evidence t)) k m) := by
  have settled := Registry.settled_of_accepted accepted
  have assessed : ∀ b ∈ r.bundles, scoreOn t b = assessment t b := fun b member =>
    scoreOn_eq t (settled.bundles b member)
  have counted : ∀ b ∈ r.bundles, points t b = evidence t b := fun b member =>
    congrArg BundleScore.score (assessed b member)
  have scores : (run r t).scores = scoreBundles r t := by
    rw [run, ofScores]
    split <;> rfl
  constructor
  · rw [scores]
    exact List.map_congr_left assessed
  · rw [← List.map_congr_left counted]
    rcases zero_or_leads r t with zeros | ⟨before, b, after, leads⟩
    · exact .inl ⟨fun b member => counted b member ▸ zeros b member, unmatched_of_zero zeros⟩
    · exact .inr ⟨before.length, points t b, firstGreatest_of_leads leads, leads.positive,
        ranked_of_leads leads settled.distinct⟩

/-- The document of the three profiles and bundles with these ids and keywords. -/
def wordedDocument (bundles : List (Text × List Text)) : Json :=
  .object [("profiles", .arr (Audience.all.map fun a => .object [("id", .str a.profileId)])),
    ("bundles", .arr (bundles.map fun b => .object [("id", .str b.1),
      ("match", .object [("keywords_any", .texts b.2)])]))]

/-- The registry that it declares, if the ids and the keywords of each bundle are distinct. -/
def worded (bundles : List (Text × List Text)) : Registry :=
  ⟨⟨.dev, Audience.dev.profileId, .arr []⟩, ⟨.audit, Audience.audit.profileId, .arr []⟩,
    ⟨.exec, Audience.exec.profileId, .arr []⟩,
    bundles.map fun b => ⟨b.1, b.1, [], [], b.2, .arr []⟩⟩

/-- Of three bundles the last two have the words of the request. -/
def tiedBundles : List (Text × List Text) :=
  [("notes", ["draft"]), ("review", ["check", "code"]), ("audit", ["Code", "check"])]

theorem run_ranked_tied :
    Registry.ofDocument (wordedDocument tiedBundles) = .ok (worded tiedBundles) ∧
      (worded tiedBundles).bundles.map (evidence "Check the code") = [0, 4, 4] ∧
      (run (worded tiedBundles) "Check the code").scores =
        (worded tiedBundles).bundles.map (assessment "Check the code") ∧
      Ranked (worded tiedBundles) "Check the code" [0, 4, 4] 1 4 := by
  have accepted : Registry.ofDocument (wordedDocument tiedBundles) = .ok (worded tiedBundles) := rfl
  have counts : (worded tiedBundles).bundles.map (evidence "Check the code") = [0, 4, 4] := by
    decide +kernel
  have second : FirstGreatest [0, 4, 4] 1 4 := ⟨rfl, by decide, by decide⟩
  obtain ⟨scores, zeros | ⟨k, m, first, -, ranked⟩⟩ := run_ranked accepted "Check the code"
  · have some : evidence "Check the code" ⟨"review", "review", [], [], ["check", "code"], .arr []⟩ = 0 :=
      zeros.1 _ (by simp [worded, tiedBundles])
    exact absurd some (by decide +kernel)
  · rw [counts] at first ranked
    obtain ⟨rfl, rfl⟩ := first.unique second
    exact ⟨accepted, counts, scores, ranked⟩

end RequestCompiler.Matching
