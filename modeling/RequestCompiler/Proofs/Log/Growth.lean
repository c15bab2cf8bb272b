import Mathlib.Data.List.DropRight
import Mathlib.Data.List.Sort
import RequestCompiler.Proofs.Log.Merged

/-!
# Logs that are torn or grow

A log may be read while it is written. What stands after its last line end has no say in what is read: the log reads
as the part up to there, and is flagged exactly if this is not all of it (`read_wholePart`). A log of whole lines may
go on in any way, with repeated identifiers and in the middle of a line, and still every event of before is read in
its place among the new ones (`Extends`), since an event that was kept is kept in every longer log and the order of
two events hangs on them alone.
-/

namespace RequestCompiler

/-- Ascending events are found in their order within all ascending events that comprise them. -/
theorem LogEvent.sublist_of_subset {es fs : List LogEvent} (ascending : es.Pairwise LogEvent.Before)
    (ascending' : fs.Pairwise LogEvent.Before) (subset : es ⊆ fs) : es.Sublist fs := by
  have : Std.Antisymm LogEvent.Before :=
    ⟨fun a b before after => absurd (before.trans after) (not_before_self a)⟩
  have distinct : es.Nodup := ascending.imp fun {a b} before => by
    rintro rfl
    exact not_before_self a before
  exact List.sublist_of_subperm_of_pairwise (List.subperm_of_subset distinct subset) ascending ascending'

namespace LogContent

/-- The log up to its last line end, which it includes; nothing, if there is none. -/
def wholePart (raw : Text) : Text := raw.rdropWhile (· != unit '\n')

/-- What was read once is read again: no event is lost or changed, no two change places, and no count falls. -/
structure Extends (before after : LogContent) : Prop where
  events : before.events.Sublist after.events
  totalLines : before.stats.totalLines ≤ after.stats.totalLines
  parsedEvents : before.stats.parsedEvents ≤ after.stats.parsedEvents
  duplicates : before.stats.duplicates ≤ after.stats.duplicates
  parseErrors : before.stats.parseErrors ≤ after.stats.parseErrors

section Torn

variable {raw : Text}

theorem wholePart_eq_self_iff : wholePart raw = raw ↔ Whole raw := by
  rw [wholePart, List.rdropWhile_eq_self_iff, Whole]
  constructor
  · intro last
    by_cases empty : raw = []
    · exact .inl empty
    · rw [List.getLast?_eq_some_getLast empty]
      exact .inr (by simpa using last empty)
  · rintro (rfl | last) ne
    · exact absurd rfl ne
    · rw [List.getLast?_eq_some_getLast ne] at last
      simpa using last

theorem whole_wholePart (raw : Text) : Whole (wholePart raw) :=
  wholePart_eq_self_iff.1 (List.rdropWhile_idempotent _ _)

theorem isTorn_iff : isTorn raw = true ↔ wholePart raw ≠ raw := by
  rw [← Bool.not_eq_false, isTorn_eq_false_iff, Ne, wholePart_eq_self_iff]

/-- The lines of a log are those of its whole part. -/
theorem completeLines_wholePart (raw : Text) : completeLines (wholePart raw) = completeLines raw := by
  let torn := raw.rtakeWhile (· != unit '\n')
  have parts : wholePart raw ++ torn = raw := List.rdropWhile_append_rtakeWhile
  have single : unit '\n' ∉ torn := by
    intro member
    have other := List.mem_rtakeWhile_imp member
    simp at other
  have none : completeLines torn = [] := by
    rw [completeLines, Text.splitAt_of_not_mem single]
    rfl
  have lines := completeLines_append_whole (b := torn) (whole_wholePart raw)
  rw [parts, none, List.append_nil] at lines
  exact lines.symm

theorem read_wholePart (raw : Text) : read (wholePart raw) =
    ⟨(read raw).events, { (read raw).stats with partialTrailingLine := false }⟩ := by
  have whole : isTorn (wholePart raw) = false := isTorn_eq_false_iff.2 (whole_wholePart raw)
  simp only [read, completeLines_wholePart, whole]

end Torn

section Growth

variable {raw : Text}

/-- Whatever a log of whole lines goes on with, it reads as before and may have got more. -/
theorem Whole.extends (whole : Whole raw) (c : Text) : Extends (read raw) (read (raw ++ c)) := by
  have lines : completeLines (raw ++ c) = completeLines raw ++ completeLines c :=
    completeLines_append_whole whole
  have parsed : written (raw ++ c) = written raw ++ written c := written_append_whole whole
  let later := firstById ((firstById [] (written raw)).map LogEvent.eventId) (written c)
  have kept : firstById [] (written (raw ++ c)) = firstById [] (written raw) ++ later := by
    rw [parsed, firstById_append, List.nil_append]
  have fewer : later.length ≤ (written c).length := (firstById_sublist _ _).length_le
  have events : (written c).length ≤ (completeLines c).length := List.length_filterMap_le _ _
  constructor
  · refine LogEvent.sublist_of_subset (events_before raw) (events_before (raw ++ c)) fun e member => ?_
    rw [(events_perm (raw ++ c)).mem_iff, kept]
    exact List.mem_append_left _ ((events_perm raw).mem_iff.1 member)
  all_goals
    rw [read_eq_written, read_eq_written, kept, parsed, lines]
    simp only [List.length_append]
    omega

end Growth

/-- A log reads as its whole part and is flagged exactly if this is not all of it. If it consists of whole lines, what
was read is read again, whatever the log goes on with. -/
theorem read_growing (raw : Text) :
    (read raw).events = (read (wholePart raw)).events ∧
      { (read raw).stats with partialTrailingLine := false } = (read (wholePart raw)).stats ∧
      ((read raw).stats.partialTrailingLine = true ↔ wholePart raw ≠ raw) ∧
      (Whole raw → ∀ c, Extends (read raw) (read (raw ++ c))) := by
  rw [read_wholePart]
  exact ⟨rfl, rfl, isTorn_iff, Whole.extends⟩

/-- Another line under an identifier that was read, the line of a new one, and a line that is cut off. -/
def continuation : Text :=
  (LogFile.clarifiedEntry.line "02" ++ [unit '\n']) ++
    ((LogFile.clarifiedEntry.line "01" ++ [unit '\n']) ++ LogFile.tornLog)

theorem read_growing_repeated : Whole leftLog ∧ wholePart leftLog = leftLog ∧
    Extends (read leftLog) (read (leftLog ++ continuation)) ∧
    (read leftLog).events = [LogFile.clarifiedEntry.event "02"] := by
  have whole : Whole leftLog := isTorn_eq_false_iff.1 (isTorn_append_feed _ _)
  have events : (read leftLog).events = [LogFile.clarifiedEntry.event "02"] := by
    have alone : firstById [] [LogFile.clarifiedEntry.event "02"] = [LogFile.clarifiedEntry.event "02"] := rfl
    rw [read_eq_written, written_leftLog, alone]
    exact List.mergeSort_singleton _
  exact ⟨whole, wholePart_eq_self_iff.2 whole, (read_growing leftLog).2.2.2 whole continuation, events⟩

end LogContent

end RequestCompiler
