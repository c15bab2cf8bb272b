import Mathlib.Data.List.Induction
import RequestCompiler.Log.Reader

/-!
# The first event of each identifier

`firstById` goes through events once and keeps those with a new identifier. What is kept of events that follow
others depends on the identifiers of what was kept of these (`firstById_append`), so that events that are only
added never take one away. The kept events have identifiers of their own (`nodup_firstById`), and every identifier is
kept with one event (`mem_ids_firstById`).
-/

namespace RequestCompiler.LogContent

variable {seen : List Text} {e : LogEvent} {es fs : List LogEvent} {id : Text}

theorem firstById_sublist (seen : List Text) (es : List LogEvent) : (firstById seen es).Sublist es := by
  induction es generalizing seen with
  | nil => exact .slnil
  | cons e es ih =>
    rw [firstById]
    split
    · exact (ih seen).cons e
    · exact (ih _).cons_cons e

/-- Of events that follow others those are kept whose identifiers are new after the kept ones of these. -/
theorem firstById_append (seen : List Text) (es fs : List LogEvent) :
    firstById seen (es ++ fs) =
      firstById seen es ++ firstById (seen ++ (firstById seen es).map LogEvent.eventId) fs := by
  induction es generalizing seen with
  | nil => simp [firstById]
  | cons e es ih =>
    rw [List.cons_append, firstById, firstById]
    split
    · exact ih seen
    · rw [ih, List.map_cons, List.cons_append, List.append_assoc, List.singleton_append]

/-- The events that are kept have identifiers of their own, none of which was seen. -/
theorem nodup_firstById (seen : List Text) (es : List LogEvent) :
    ((firstById seen es).map LogEvent.eventId).Nodup ∧ ∀ e ∈ firstById seen es, e.eventId ∉ seen := by
  induction es generalizing seen with
  | nil => exact ⟨List.nodup_nil, nofun⟩
  | cons e es ih =>
    rw [firstById]
    split
    · exact ih seen
    · rename_i new
      obtain ⟨distinct, unseen⟩ := ih (seen ++ [e.eventId])
      constructor
      · rw [List.map_cons, List.nodup_cons]
        refine ⟨fun member => ?_, distinct⟩
        obtain ⟨e', kept, same⟩ := List.mem_map.1 member
        exact unseen e' kept (same ▸ List.mem_append_right _ List.mem_cons_self)
      · intro e' member
        rcases List.mem_cons.1 member with rfl | kept
        · exact fun old => new (List.contains_iff_mem.2 old)
        · exact fun old => unseen e' kept (List.mem_append_left _ old)

/-- Every identifier is kept with one event. -/
theorem mem_ids_firstById (member : id ∈ es.map LogEvent.eventId) :
    id ∈ seen ∨ id ∈ (firstById seen es).map LogEvent.eventId := by
  induction es generalizing seen with
  | nil => exact absurd member List.not_mem_nil
  | cons v es ih =>
    rw [List.map_cons, List.mem_cons] at member
    rw [firstById]
    split
    · rename_i again
      rcases member with rfl | member
      · exact .inl (List.contains_iff_mem.1 again)
      · exact ih member
    · rw [List.map_cons, List.mem_cons]
      rcases member with rfl | member
      · exact .inr (.inl rfl)
      · have found : id ∈ seen ++ [v.eventId] ∨ _ := ih member
        rcases found with old | new
        · rcases List.mem_append.1 old with old | same
          · exact .inl old
          · exact .inr (.inl (List.mem_singleton.1 same))
        · exact .inr (.inr new)

/-- An event with a new identifier is kept behind the others. -/
theorem firstById_concat (unseen : e.eventId ∉ seen) (fresh : e.eventId ∉ es.map LogEvent.eventId) :
    firstById seen (es ++ [e]) = firstById seen es ++ [e] := by
  have unkept : e.eventId ∉ (firstById seen es).map LogEvent.eventId := fun kept =>
    fresh (((firstById_sublist seen es).map LogEvent.eventId).mem kept)
  have new : e.eventId ∉ seen ++ (firstById seen es).map LogEvent.eventId := fun old =>
    (List.mem_append.1 old).elim unseen unkept
  rw [firstById_append, firstById, if_neg (by simpa using new), firstById]

/-- Events whose identifiers were seen are left out. -/
theorem firstById_eq_nil (repeated : ∀ e ∈ es, e.eventId ∈ seen) : firstById seen es = [] := by
  rw [List.eq_nil_iff_forall_not_mem]
  intro e kept
  exact (nodup_firstById seen es).2 e kept (repeated e ((firstById_sublist seen es).mem kept))

/-- Events that repeat identifiers of earlier ones make no difference. -/
theorem firstById_append_repeated
    (repeated : ∀ f ∈ fs, f.eventId ∈ seen ∨ f.eventId ∈ es.map LogEvent.eventId) :
    firstById seen (es ++ fs) = firstById seen es := by
  have none : firstById (seen ++ (firstById seen es).map LogEvent.eventId) fs = [] := by
    refine firstById_eq_nil fun f member => List.mem_append.2 ?_
    rcases repeated f member with old | earlier
    · exact .inl old
    · exact mem_ids_firstById earlier
  rw [firstById_append, none, List.append_nil]

end RequestCompiler.LogContent
