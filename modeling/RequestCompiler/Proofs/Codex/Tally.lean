import RequestCompiler.Codex
import RequestCompiler.Proofs.Json.KeyOrder
import RequestCompiler.Proofs.Table

/-!
# Counting texts

`Counted ts counts` says that the counts are those of the texts: each text that occurs has one count, and it
is how often it occurs. Counting one more text keeps this (`Counted.countOne`), so it holds of a whole list
(`counted_foldl`) and, since neither sorting nor the order of fields loses a count, of its tally
(`counted_tally`). The keys of a tally stand in the order of fields (`tally_ahead`).
-/

namespace RequestCompiler.Codex

/-- The count of a text, nought if the text is not there. -/
def countOf (counts : List (Text × Nat)) (t : Text) : Nat := (Fields.get? counts t).getD 0

/-- The counts are those of the texts. -/
structure Counted (ts : List Text) (counts : List (Text × Nat)) : Prop where
  distinct : (counts.map Prod.fst).Nodup
  occurring : ∀ t, t ∈ counts.map Prod.fst ↔ t ∈ ts
  each : ∀ t, countOf counts t = ts.count t
  sum : (counts.map Prod.snd).sum = ts.length

variable {ts : List Text} {counts counts' : List (Text × Nat)}

theorem Counted.countOne (counted : Counted ts counts) (t : Text) :
    Counted (ts ++ [t]) (Codex.countOne counts t) where
  distinct := Table.nodup_set counted.distinct t _
  occurring := by
    intro s
    rw [Codex.countOne, Table.mem_keys_set, counted.occurring, List.mem_append, List.mem_singleton]
    exact or_comm
  each := by
    intro s
    rw [countOf, Codex.countOne, Table.get?_set, List.count_append, List.count_singleton, ← counted.each s]
    by_cases same : t = s
    · rw [if_pos same, same, Option.getD_some, if_pos (beq_self_eq_true s)]
      rfl
    · rw [if_neg same, if_neg (by simpa using same)]
      rfl
  sum := by
    have added := Table.sum_set counts t ((Fields.get? counts t).getD 0 + 1)
    have before := counted.sum
    rw [Codex.countOne, List.length_append, List.length_singleton]
    omega

theorem Counted.mem_iff (counted : Counted ts counts) {t : Text} {n : Nat} :
    (t, n) ∈ counts ↔ t ∈ ts ∧ ts.count t = n := by
  have own : ∀ n, (t, n) ∈ counts → ts.count t = n := by
    intro n member
    rw [← counted.each, countOf, (Fields.get?_eq_some_iff counted.distinct).2 member]
    rfl
  rw [← counted.occurring]
  constructor
  · intro member
    exact ⟨List.mem_map_of_mem member, own n member⟩
  · rintro ⟨key, rfl⟩
    obtain ⟨n, member⟩ := Json.exists_of_mem_keys key
    rwa [own n member]

theorem counted_foldl (ts : List Text) : Counted ts (ts.foldl countOne []) := by
  induction ts using List.reverseRecOn with
  | nil => exact ⟨.nil, fun t => .rfl, fun t => rfl, rfl⟩
  | append_singleton ts t ih =>
    rw [List.foldl_concat]
    exact ih.countOne t

/-- Counts may stand in any order. -/
theorem Counted.perm (counted : Counted ts counts) (same : counts'.Perm counts) : Counted ts counts' where
  distinct := (same.map Prod.fst).nodup_iff.2 counted.distinct
  occurring := by
    intro t
    rw [(same.map Prod.fst).mem_iff]
    exact counted.occurring t
  each := by
    intro t
    rw [countOf, Fields.get?_perm counted.distinct same]
    exact counted.each t
  sum := by
    rw [(same.map Prod.snd).sum_nat]
    exact counted.sum

theorem counted_sorted (ts : List Text) : Counted ts (Json.sortByKey (ts.foldl countOne [])) :=
  (counted_foldl ts).perm (List.mergeSort_perm _ _)

theorem counted_tally (ts : List Text) : Counted ts (tally ts) :=
  (counted_sorted ts).perm (Fields.ofList_perm (counted_sorted ts).distinct)

theorem tally_ahead (ts : List Text) : ((tally ts).map Prod.fst).Pairwise Fields.Ahead := by
  apply Fields.ofList_ahead
  have ordered := Json.sortByKey_ordered (ts.foldl countOne [])
  have distinct := (counted_sorted ts).distinct
  rw [List.Nodup, List.pairwise_map] at distinct
  rw [List.pairwise_map]
  refine (ordered.and distinct).imp ?_
  rintro p q ⟨le, ne⟩
  exact Std.lt_of_le_of_ne le ne

/-- A text occurs in a field as often as there are entries with it. -/
theorem count_map (es : List Entry) (field : Entry → Text) (t : Text) :
    (es.map field).count t = (es.filter fun e => field e == t).length := by
  rw [List.count, List.countP_map, List.countP_eq_length_filter]
  rfl

/-- The keys of a tally ascend exactly if no text that comes first is above another one. -/
theorem tally_ascending_iff (ts : List Text) :
    ((tally ts).map Prod.fst).Pairwise (· < ·) ↔ ∀ k ∈ ts, ∀ l ∈ ts, Fields.ComesFirst k l → k < l := by
  rw [Fields.ascending_iff (tally_ahead ts)]
  simp only [(counted_tally ts).occurring]

end RequestCompiler.Codex
