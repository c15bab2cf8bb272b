import RequestCompiler.Log.Reader

/-!
# The order of events

`LogEvent.Before` orders events by time and events of one time by identifier, both by code units. Events
with identifiers of their own that are sorted stand strictly in that order (`sorted_before`), and no
other arrangement of them does (`eq_of_before`).
-/

namespace RequestCompiler.LogEvent

/-- Earlier than the other event: by timestamp, then by identifier. -/
def Before (a b : LogEvent) : Prop :=
  a.timestamp < b.timestamp ∨ a.timestamp = b.timestamp ∧ a.eventId < b.eventId

variable {a b c : LogEvent}

theorem Before.trans (h : Before a b) (h' : Before b c) : Before a c := by
  rcases h with lt | ⟨time, id⟩ <;> rcases h' with lt' | ⟨time', id'⟩
  · exact .inl (Std.lt_trans lt lt')
  · exact .inl (time' ▸ lt)
  · exact .inl (time ▸ lt')
  · exact .inr ⟨time.trans time', Std.lt_trans id id'⟩

theorem not_before_self (a : LogEvent) : ¬Before a a := by
  rintro (lt | ⟨-, lt⟩)
  · exact Std.lt_irrefl lt
  · exact Std.lt_irrefl lt

/-- One of two events is before the other, unless time and identifier are the same. -/
theorem before_trichotomy (a b : LogEvent) :
    Before a b ∨ (a.timestamp = b.timestamp ∧ a.eventId = b.eventId) ∨ Before b a := by
  by_cases time : a.timestamp = b.timestamp
  · by_cases id : a.eventId = b.eventId
    · exact .inr (.inl ⟨time, id⟩)
    · rcases List.le_total a.eventId b.eventId with h | h
      · exact .inl (.inr ⟨time, Std.lt_of_le_of_ne h id⟩)
      · exact .inr (.inr (.inr ⟨time.symm, Std.lt_of_le_of_ne h (Ne.symm id)⟩))
  · rcases List.le_total a.timestamp b.timestamp with h | h
    · exact .inl (.inl (Std.lt_of_le_of_ne h time))
    · exact .inr (.inr (.inl (Std.lt_of_le_of_ne h (Ne.symm time))))

theorem le_iff : a.le b = true ↔ Before a b ∨ a.timestamp = b.timestamp ∧ a.eventId = b.eventId := by
  unfold le Before Text.le
  split
  · rename_i same
    have irrefl : ¬b.timestamp < b.timestamp := Std.lt_irrefl
    simp only [same, irrefl, true_and, false_or, decide_eq_true_iff]
    constructor
    · intro h
      by_cases equal : a.eventId = b.eventId
      · exact .inr equal
      · exact .inl (Std.lt_of_le_of_ne h equal)
    · rintro (lt | equal)
      · exact Std.le_of_lt lt
      · exact Std.le_of_eq equal
  · rename_i differ
    simp only [differ, false_and, or_false, decide_eq_true_iff]
    exact ⟨fun h => Std.lt_of_le_of_ne h differ, Std.le_of_lt⟩

theorem le_trans (h : a.le b = true) (h' : b.le c = true) : a.le c = true := by
  rw [le_iff] at *
  rcases h with before | ⟨time, id⟩
  · rcases h' with before' | ⟨time', id'⟩
    · exact .inl (before.trans before')
    · exact .inl (by rwa [Before, ← time', ← id'])
  · rwa [Before, time, id]

theorem le_total (a b : LogEvent) : (a.le b || b.le a) = true := by
  rw [Bool.or_eq_true, le_iff, le_iff]
  rcases before_trichotomy a b with before | ⟨time, id⟩ | after
  · exact .inl (.inl before)
  · exact .inl (.inr ⟨time, id⟩)
  · exact .inr (.inl after)

/-- Sorted events with identifiers of their own strictly ascend. -/
theorem sorted_before {es : List LogEvent} (distinct : (es.map eventId).Nodup) :
    (es.mergeSort le).Pairwise Before := by
  have trans : ∀ a b c : LogEvent, a.le b = true → b.le c = true → a.le c = true := fun _ _ _ h h' =>
    le_trans h h'
  have sorted : (es.mergeSort le).Pairwise fun a b => a.le b = true :=
    List.pairwise_mergeSort trans le_total es
  have apart : (es.mergeSort le).Pairwise fun a b => a.eventId ≠ b.eventId :=
    List.pairwise_map.1 ((((List.mergeSort_perm es le).map eventId).nodup_iff).2 distinct)
  refine sorted.imp₂ (fun a b h differ => ?_) apart
  exact (le_iff.1 h).resolve_right fun same => differ same.2

/-- Ascending lists of the same events are equal. -/
theorem eq_of_before {es fs : List LogEvent} (same : es.Perm fs) (ascending : es.Pairwise Before)
    (ascending' : fs.Pairwise Before) : es = fs := by
  refine List.Perm.eq_of_pairwise (fun a b _ _ before after => ?_) ascending ascending' same
  exact absurd (before.trans after) (not_before_self a)

end RequestCompiler.LogEvent
