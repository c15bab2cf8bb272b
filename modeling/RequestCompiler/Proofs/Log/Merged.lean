import RequestCompiler.Proofs.Log.File
import RequestCompiler.Proofs.Log.Order

/-!
# Merged logs

Logs of whole lines, one behind the other, have the lines of both (`completeLines_append_whole`). What is
read does not depend on the order of the lines if events with one identifier are equal (`read_perm`), so
two such logs read the same in either order (`read_merged`), as the sorted union of their events.
-/

namespace RequestCompiler.LogContent

/-- The log is empty, or its last line is complete. -/
def Whole (raw : Text) : Prop := raw = [] ∨ raw.getLast? = some (unit '\n')

/-- Events with the same identifier are equal. -/
def Agreeing (es : List LogEvent) : Prop :=
  ∀ e ∈ es, ∀ e' ∈ es, e.eventId = e'.eventId → e = e'

/-- The third list holds the events of the other two, in ascending order and so without repetition. -/
structure SortedUnion (es fs union : List LogEvent) : Prop where
  mem_iff : ∀ e, e ∈ union ↔ e ∈ es ∨ e ∈ fs
  ascending : union.Pairwise LogEvent.Before
  /-- No two events share an identifier. -/
  distinct : (union.map LogEvent.eventId).Nodup

section FirstById

variable {es fs : List LogEvent}

/-- Of agreeing events none is lost. -/
theorem mem_firstById (agree : Agreeing es) {e : LogEvent} : e ∈ firstById [] es ↔ e ∈ es := by
  constructor
  · exact fun kept => (firstById_sublist [] es).mem kept
  · intro member
    have found : e.eventId ∈ [] ∨ _ := mem_ids_firstById (List.mem_map_of_mem member)
    obtain ⟨e', kept, same⟩ := List.mem_map.1 (found.resolve_left List.not_mem_nil)
    have equal : e' = e := agree e' ((firstById_sublist [] es).mem kept) e member same
    exact equal ▸ kept

/-- The order of agreeing events decides nothing but the order of those that are kept. -/
theorem firstById_perm (agree : Agreeing es) (same : es.Perm fs) :
    (firstById [] es).Perm (firstById [] fs) := by
  have agree' : Agreeing fs := fun e member e' member' =>
    agree e (same.mem_iff.2 member) e' (same.mem_iff.2 member')
  have distinct : ∀ es, (firstById [] es).Nodup := fun es => ((nodup_firstById [] es).1).of_map _
  rw [List.perm_ext_iff_of_nodup (distinct es) (distinct fs)]
  intro e
  rw [mem_firstById agree, mem_firstById agree', same.mem_iff]

end FirstById

section Events

variable {raw raw' : Text}

theorem nodup_ids_events (raw : Text) : ((read raw).events.map LogEvent.eventId).Nodup :=
  ((events_perm raw).map LogEvent.eventId).nodup_iff.2 (nodup_firstById [] (written raw)).1

theorem events_before (raw : Text) : (read raw).events.Pairwise LogEvent.Before :=
  LogEvent.sorted_before (nodup_firstById [] (written raw)).1

theorem mem_events (agree : Agreeing (written raw)) {e : LogEvent} :
    e ∈ (read raw).events ↔ e ∈ written raw := by
  rw [(events_perm raw).mem_iff, mem_firstById agree]

/-- The order of the lines of a log does not show in what is read. -/
theorem read_perm (same : (completeLines raw).Perm (completeLines raw'))
    (torn : isTorn raw = isTorn raw') (agree : Agreeing (written raw)) : read raw = read raw' := by
  have parsed : (written raw).Perm (written raw') := same.filterMap _
  have kept : (firstById [] (written raw)).Perm (firstById [] (written raw')) :=
    firstById_perm agree parsed
  have events : (firstById [] (written raw)).mergeSort LogEvent.le =
      (firstById [] (written raw')).mergeSort LogEvent.le :=
    LogEvent.eq_of_before ((events_perm raw).trans (kept.trans (events_perm raw').symm))
      (events_before raw) (events_before raw')
  rw [read_eq_written, read_eq_written, events, same.length_eq, parsed.length_eq, kept.length_eq, torn]

end Events

section Whole

variable {a b : Text}

theorem isTorn_eq_false_iff {raw : Text} : isTorn raw = false ↔ Whole raw := by
  simp [isTorn, Whole, or_iff_not_imp_left]

theorem Whole.append (whole : Whole a) (whole' : Whole b) : Whole (a ++ b) := by
  rcases whole' with rfl | last
  · rwa [List.append_nil]
  · refine .inr ?_
    rw [List.getLast?_append, last]
    rfl

/-- Behind whole lines a log has its own lines. -/
theorem completeLines_append_whole (whole : Whole a) :
    completeLines (a ++ b) = completeLines a ++ completeLines b := by
  rcases whole with rfl | last
  · rfl
  · obtain ⟨front, rfl⟩ := List.getLast?_eq_some_iff.1 last
    have ne : Text.splitAt (unit '\n') b ≠ [] := Text.splitAt_ne_nil b
    have alone : Text.splitAt (unit '\n') (front ++ [unit '\n']) =
        Text.splitAt (unit '\n') front ++ [[]] := Text.splitAt_append front []
    rw [completeLines, completeLines, completeLines, List.append_assoc, List.singleton_append,
      Text.splitAt_append, alone, List.dropLast_append_of_ne_nil ne, List.dropLast_concat,
      List.filter_append]

theorem written_append_whole (whole : Whole a) : written (a ++ b) = written a ++ written b := by
  rw [written, completeLines_append_whole whole, List.filterMap_append]
  rfl

end Whole

/-- Logs of whole lines that give equal events under one identifier read the same in either order, as
the sorted union of their events. A log that is repeated adds no event. -/
theorem read_merged {a b : Text} (whole : Whole a) (whole' : Whole b)
    (agree : Agreeing (written a ++ written b)) :
    read (a ++ b) = read (b ++ a) ∧
      SortedUnion (read a).events (read b).events (read (a ++ b)).events ∧
      (read (a ++ a)).events = (read a).events := by
  have together : Agreeing (written (a ++ b)) := by rwa [written_append_whole whole]
  refine ⟨?_, ?_, ?_⟩
  · refine read_perm ?_ ?_ together
    · rw [completeLines_append_whole whole, completeLines_append_whole whole']
      exact List.perm_append_comm
    · rw [isTorn_eq_false_iff.2 (whole.append whole'), isTorn_eq_false_iff.2 (whole'.append whole)]
  · have agree₁ : Agreeing (written a) := fun e member e' member' =>
      agree e (List.mem_append_left _ member) e' (List.mem_append_left _ member')
    have agree₂ : Agreeing (written b) := fun e member e' member' =>
      agree e (List.mem_append_right _ member) e' (List.mem_append_right _ member')
    refine ⟨fun e => ?_, events_before _, nodup_ids_events _⟩
    rw [mem_events together, mem_events agree₁, mem_events agree₂, written_append_whole whole,
      List.mem_append]
  · have repeated : firstById [] (written a ++ written a) = firstById [] (written a) :=
      firstById_append_repeated fun f member => .inr (List.mem_map_of_mem member)
    simp only [read_eq_written, written_append_whole whole, repeated]

/-- A line that is no event, and the line of an entry. -/
def leftLog : Text :=
  (Text.ofString "no event" ++ [unit '\n']) ++ (LogFile.clarifiedEntry.line "02" ++ [unit '\n'])

/-- The lines of two entries, the second one being that of the other log. -/
def rightLog : Text :=
  (LogFile.clarifiedEntry.line "01" ++ [unit '\n']) ++ (LogFile.clarifiedEntry.line "02" ++ [unit '\n'])

theorem isGap_rest_line (line : Text) : Json.IsGap (rest (line ++ [unit '\n'])) := by
  have none : rest (line ++ [unit '\n']) = [] := rest_append_feed [] line
  rw [none]
  exact nofun

theorem written_leftLog : written leftLog = [LogFile.clarifiedEntry.event "02"] := by
  have none : written (Text.ofString "no event" ++ [unit '\n']) = [] :=
    List.isEmpty_iff.1 (by decide +kernel)
  rw [leftLog, written_append _ (by decide) (isGap_rest_line _), none, List.nil_append]

theorem written_rightLog :
    written rightLog = [LogFile.clarifiedEntry.event "01", LogFile.clarifiedEntry.event "02"] := by
  have first : written ([] ++ (LogFile.clarifiedEntry.line "01" ++ [unit '\n'])) =
      written [] ++ [LogFile.clarifiedEntry.event "01"] :=
    written_append LogFile.clarifiedEntry (by decide) nofun
  rw [List.nil_append] at first
  rw [rightLog, written_append _ (by decide) (isGap_rest_line _), first]
  rfl

theorem read_merged_repeated :
    Whole leftLog ∧ Whole rightLog ∧ Agreeing (written leftLog ++ written rightLog) ∧
      read (leftLog ++ rightLog) = read (rightLog ++ leftLog) ∧
      SortedUnion (read leftLog).events (read rightLog).events (read (leftLog ++ rightLog)).events ∧
      (read (leftLog ++ leftLog)).events = (read leftLog).events := by
  have whole : Whole leftLog := isTorn_eq_false_iff.1 (isTorn_append_feed _ _)
  have whole' : Whole rightLog := isTorn_eq_false_iff.1 (isTorn_append_feed _ _)
  have apart : Text.ofString "01" ≠ Text.ofString "02" := by decide
  have agree : Agreeing (written leftLog ++ written rightLog) := by
    rw [written_leftLog, written_rightLog]
    simp [Agreeing, LogEntry.event, apart, apart.symm]
  exact ⟨whole, whole', agree, read_merged whole whole' agree⟩

end RequestCompiler.LogContent
