import RequestCompiler.Delta

/-!
# The order in which deltas are written

`Delta.Before` orders deltas by key and deltas of one key by value, both by code units. The
sorted deltas are the given ones in that order, each as often as it was given, and
`sorted_unique` says that no other list is.
-/

namespace RequestCompiler.Delta

/-- Not after the other delta: by key, then by value. -/
def Before (d e : Delta) : Prop := d.key < e.key ∨ d.key = e.key ∧ d.value ≤ e.value

theorem le_iff {d e : Delta} : d.le e = true ↔ Before d e := by
  unfold le Before Text.le
  split
  · rename_i same
    have irrefl : ¬e.key < e.key := Std.lt_irrefl
    simp [same, irrefl]
  · rename_i differ
    rw [decide_eq_true_iff]
    constructor
    · exact fun h => .inl (Std.lt_of_le_of_ne h differ)
    · exact fun h => h.elim Std.le_of_lt fun h => absurd h.1 differ

theorem Before.trans {d e f : Delta} (h : Before d e) (h' : Before e f) : Before d f := by
  rcases h with lt | ⟨key, value⟩ <;> rcases h' with lt' | ⟨key', value'⟩
  · exact .inl (Std.lt_trans lt lt')
  · exact .inl (key' ▸ lt)
  · exact .inl (key ▸ lt')
  · exact .inr ⟨key.trans key', Std.le_trans value value'⟩

theorem before_total (d e : Delta) : Before d e ∨ Before e d := by
  by_cases same : d.key = e.key
  · exact (List.le_total d.value e.value).imp (fun h => .inr ⟨same, h⟩) fun h => .inr ⟨same.symm, h⟩
  · rcases List.le_total d.key e.key with h | h
    · exact .inl (.inl (Std.lt_of_le_of_ne h same))
    · exact .inr (.inl (Std.lt_of_le_of_ne h (Ne.symm same)))

theorem Before.antisymm {d e : Delta} (h : Before d e) (h' : Before e d) : d = e := by
  rcases h with lt | ⟨key, value⟩ <;> rcases h' with lt' | ⟨key', value'⟩
  · exact absurd (Std.lt_trans lt lt') Std.lt_irrefl
  · exact absurd (key' ▸ lt) Std.lt_irrefl
  · exact absurd (key ▸ lt') Std.lt_irrefl
  · cases d
    cases e
    exact congr (congrArg Delta.mk key) (Std.le_antisymm value value')

/-- Sorting keeps every delta as often as it was given. -/
theorem sorted_perm (ds : List Delta) : (sorted ds).Perm ds := List.mergeSort_perm ds le

theorem mem_sorted {d : Delta} {ds : List Delta} : d ∈ sorted ds ↔ d ∈ ds := (sorted_perm ds).mem_iff

theorem sorted_pairwise (ds : List Delta) : (sorted ds).Pairwise Before := by
  have trans : ∀ d e f : Delta, d.le e = true → e.le f = true → d.le f = true := fun _ _ _ h h' =>
    le_iff.2 ((le_iff.1 h).trans (le_iff.1 h'))
  have total : ∀ d e : Delta, (d.le e || e.le d) = true := fun d e => by
    simpa [le_iff] using before_total d e
  exact (List.pairwise_mergeSort trans total ds).imp le_iff.1

/-- Two lists of the same deltas in writing order are the same list. -/
theorem sorted_unique {ds es : List Delta} (same : es.Perm ds) (ordered : es.Pairwise Before) :
    es = sorted ds :=
  List.Perm.eq_of_pairwise (fun _ _ _ _ h h' => h.antisymm h') ordered (sorted_pairwise ds)
    (same.trans (sorted_perm ds).symm)

end RequestCompiler.Delta
