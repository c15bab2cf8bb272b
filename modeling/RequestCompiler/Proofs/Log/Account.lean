import Mathlib.Data.Set.Card
import RequestCompiler.Proofs.Log.Merged

/-!
# What is read from a log

The complete lines of a log, `CompleteLines`, are told from its text alone, and so is what a line says, `SaidBy`.
Every event that is read is said by a line whose identifier no line before it has, and every identifier is among
them; the counts are the numbers of places in the list of lines, of which each falls under one of three heads: the
first line with its identifier, a later one, or no event (`countPlaces`). The counts are carried from one line to the
next (`countPlaces_concat`), and `read_accounts` puts all of this together.
-/

namespace RequestCompiler

/-- What a line says that is an object with an identifier. -/
structure LogEvent.SaidBy (line : Text) (e : LogEvent) : Prop where
  object : Json.read line = some (.obj e.fields)
  id : e.fields.get? "event_id" = some (.str e.eventId)
  named : e.eventId ≠ []
  /-- A timestamp that is no text counts as the empty one. -/
  timestamp : e.fields.get? "timestamp" = some (.str e.timestamp) ∨
    (∀ t, e.fields.get? "timestamp" ≠ some (.str t)) ∧ e.timestamp = []

namespace LogEvent

theorem text?_eq_some_iff {fields : Fields Json} {key t : Text} :
    text? fields key = some t ↔ fields.get? key = some (.str t) := by
  unfold text?
  split
  · rename_i s value
    simp [value]
  · rename_i other
    exact iff_of_false nofun (other t)

theorem getD_text?_eq_iff {fields : Fields Json} {key t : Text} :
    (text? fields key).getD [] = t ↔ fields.get? key = some (.str t) ∨
      (∀ s, fields.get? key ≠ some (.str s)) ∧ t = [] := by
  cases value : text? fields key with
  | none =>
    have absent : ∀ s, fields.get? key ≠ some (.str s) := fun s held => by
      rw [← text?_eq_some_iff, value] at held
      cases held
    simp [absent, eq_comm]
  | some s =>
    have held := text?_eq_some_iff.1 value
    simp [held]

theorem ofLine?_eq_some_iff {line : Text} {e : LogEvent} : ofLine? line = some e ↔ SaidBy line e := by
  unfold ofLine?
  constructor
  · intro read
    split at read
    · rename_i fields object
      split at read
      · rename_i id named
        split at read
        · cases read
        · rename_i solid
          obtain rfl := Option.some.inj read
          exact ⟨object, text?_eq_some_iff.1 named, by simpa using solid, getD_text?_eq_iff.1 rfl⟩
      · cases read
    · cases read
  · rintro ⟨object, id, named, timestamp⟩
    simp only [object, text?_eq_some_iff.2 id, List.isEmpty_iff, named, if_false,
      getD_text?_eq_iff.2 timestamp]

theorem SaidBy.unique {line : Text} {e e' : LogEvent} (said : SaidBy line e) (said' : SaidBy line e') :
    e = e' := by
  rw [← ofLine?_eq_some_iff] at said said'
  exact Option.some.inj (said.symm.trans said')

end LogEvent

namespace LogContent

open LogEvent (SaidBy)

/-- The lines of a log: its pieces between line feeds that are not empty, without the last piece unless
the log ends with a line feed. -/
def CompleteLines (raw : Text) (lines : List Text) : Prop :=
  ∃ pieces : List Text, pieces ≠ [] ∧ (∀ p ∈ pieces, unit '\n' ∉ p) ∧ Text.join [unit '\n'] pieces = raw ∧
    lines = (if raw.getLast? = some (unit '\n') then pieces else pieces.dropLast).filter fun l => l ≠ []

/-- One of the lines says an event with the identifier. -/
def Known (lines : List Text) (id : Text) : Prop := ∃ line ∈ lines, ∃ e, SaidBy line e ∧ e.eventId = id

/-- The places in a list of lines where the line has a property behind the lines before it. A place is
told by these lines before it. -/
def places (P : List Text → Text → Prop) (lines : List Text) : Set (List Text) :=
  {before | ∃ line after, lines = before ++ line :: after ∧ P before line}

/-- The number of places in a list of lines where the line has a property behind the lines before it. -/
noncomputable def countPlaces (P : List Text → Text → Prop) (lines : List Text) : Nat :=
  (places P lines).ncard

/-- The line says an event with an identifier that the lines before it have not. -/
def IsFirst (before : List Text) (line : Text) : Prop := ∃ e, SaidBy line e ∧ ¬Known before e.eventId

/-- The line says an event with an identifier that a line before it has. -/
def IsRepeat (before : List Text) (line : Text) : Prop := ∃ e, SaidBy line e ∧ Known before e.eventId

/-- The line says no event. -/
def IsNone (_ : List Text) (line : Text) : Prop := ∀ e, ¬SaidBy line e

/-- What is read from a log with these complete lines. -/
structure Accounts (lines : List Text) (log : LogContent) : Prop where
  distinct : (log.events.map LogEvent.eventId).Nodup
  ids : ∀ id, id ∈ log.events.map LogEvent.eventId ↔ id ≠ [] ∧ ∃ line ∈ lines, ∃ fields,
    Json.read line = some (.obj fields) ∧ Fields.get? fields "event_id" = some (.str id)
  /-- An event is what the first line with its identifier says. -/
  first : ∀ e ∈ log.events, ∃ before line after, lines = before ++ line :: after ∧ SaidBy line e ∧
    ¬Known before e.eventId
  ascending : log.events.Pairwise LogEvent.Before
  totalLines : log.stats.totalLines = lines.length
  parsedEvents : log.stats.parsedEvents = log.events.length ∧
    log.stats.parsedEvents = countPlaces IsFirst lines
  duplicates : log.stats.duplicates = countPlaces IsRepeat lines
  parseErrors : log.stats.parseErrors = countPlaces IsNone lines
  total : log.stats.totalLines = log.stats.parsedEvents + log.stats.duplicates + log.stats.parseErrors

theorem completeLines_iff {raw : Text} {lines : List Text} :
    CompleteLines raw lines ↔ completeLines raw = lines := by
  have solid : ∀ l : Text, (!l.isEmpty) = decide (l ≠ []) := fun l => by cases l <;> rfl
  have pieces_iff : ∀ pieces : List Text,
      (pieces ≠ [] ∧ (∀ p ∈ pieces, unit '\n' ∉ p) ∧ Text.join [unit '\n'] pieces = raw) ↔
        pieces = raw.splitAt (unit '\n') := by
    intro pieces
    constructor
    · rintro ⟨ne, whole, rfl⟩
      exact (Text.splitAt_join ne whole).symm
    · rintro rfl
      exact ⟨Text.splitAt_ne_nil raw, fun p member => Text.not_mem_of_mem_splitAt member,
        Text.join_splitAt _ raw⟩
  have last : (if raw.getLast? = some (unit '\n') then raw.splitAt (unit '\n')
      else (raw.splitAt (unit '\n')).dropLast).filter (fun l => l ≠ []) = completeLines raw := by
    simp only [completeLines, solid]
    split
    · rename_i feed
      -- What stands behind the last line feed is the empty piece.
      obtain ⟨front, rfl⟩ := List.getLast?_eq_some_iff.1 feed
      rw [Text.splitAt_append, show Text.splitAt (unit '\n') [] = [[]] from rfl, List.dropLast_concat,
        List.filter_append]
      simp
    · rfl
  rw [← last]
  constructor
  · rintro ⟨pieces, ne, whole, joined, rfl⟩
    rw [(pieces_iff pieces).1 ⟨ne, whole, joined⟩]
  · rintro rfl
    obtain ⟨ne, whole, joined⟩ := (pieces_iff _).2 rfl
    exact ⟨_, ne, whole, joined, rfl⟩

section Places

variable {P : List Text → Text → Prop} {lines before : List Text} {line : Text}

theorem countPlaces_nil : countPlaces P [] = 0 := by
  have none : places P [] = ∅ := by
    rw [Set.eq_empty_iff_forall_notMem]
    rintro before ⟨line, after, split, -⟩
    simp at split
  rw [countPlaces, none, Set.ncard_empty]

theorem mem_places_concat :
    before ∈ places P (lines ++ [line]) ↔ before ∈ places P lines ∨ before = lines ∧ P lines line := by
  constructor
  · rintro ⟨l, after, split, holds⟩
    rcases after.eq_nil_or_concat with rfl | ⟨after, last, rfl⟩
    · obtain ⟨rfl, same⟩ := List.append_inj' split rfl
      obtain rfl := List.head_eq_of_cons_eq same
      exact .inr ⟨rfl, holds⟩
    · rw [List.concat_eq_append, ← List.cons_append, ← List.append_assoc] at split
      obtain ⟨rfl, -⟩ := List.append_inj' split rfl
      exact .inl ⟨l, after, rfl, holds⟩
  · rintro (⟨l, after, rfl, holds⟩ | ⟨rfl, holds⟩)
    · exact ⟨l, after ++ [line], by simp, holds⟩
    · exact ⟨line, [], rfl, holds⟩

/-- Before every place there are fewer lines than there are in all. -/
theorem not_mem_places_self : lines ∉ places P lines := by
  rintro ⟨line, after, split, -⟩
  have lengths := congrArg List.length split
  rw [List.length_append, List.length_cons] at lengths
  omega

theorem finite_places (P : List Text → Text → Prop) (lines : List Text) : (places P lines).Finite := by
  induction lines using List.reverseRecOn with
  | nil =>
    refine Set.finite_empty.subset ?_
    rintro before ⟨line, after, split, -⟩
    simp at split
  | append_singleton lines line ih =>
    refine (ih.insert lines).subset fun before place => ?_
    rcases mem_places_concat.1 place with old | ⟨rfl, -⟩
    · exact .inr old
    · exact .inl rfl

/-- A further line that has the property is one place more. -/
theorem countPlaces_concat (holds : P lines line) :
    countPlaces P (lines ++ [line]) = countPlaces P lines + 1 := by
  have more : places P (lines ++ [line]) = insert lines (places P lines) := by
    ext before
    rw [mem_places_concat, Set.mem_insert_iff, or_comm]
    exact or_congr_left (and_iff_left holds)
  rw [countPlaces, more, Set.ncard_insert_of_notMem not_mem_places_self (finite_places P lines)]
  rfl

theorem countPlaces_concat_of_not (fails : ¬P lines line) :
    countPlaces P (lines ++ [line]) = countPlaces P lines := by
  have same : places P (lines ++ [line]) = places P lines := by
    ext before
    rw [mem_places_concat]
    exact or_iff_left fun new => fails new.2
  rw [countPlaces, same]
  rfl

end Places

section Lines

variable {lines : List Text} {line : Text} {e : LogEvent}

theorem IsNone.not_isFirst (silent : IsNone lines line) : ¬IsFirst lines line := by
  rintro ⟨e, said, -⟩
  exact silent e said

theorem IsNone.not_isRepeat (silent : IsNone lines line) : ¬IsRepeat lines line := by
  rintro ⟨e, said, -⟩
  exact silent e said

theorem IsFirst.not_isRepeat (isFirst : IsFirst lines line) : ¬IsRepeat lines line := by
  rintro ⟨e, said, known⟩
  obtain ⟨e', said', fresh⟩ := isFirst
  rw [said'.unique said] at fresh
  exact fresh known

/-- The events of a list of lines, repeated ones included. -/
abbrev eventsOf (lines : List Text) : List LogEvent := lines.filterMap LogEvent.ofLine?

theorem known_iff {id : Text} : Known lines id ↔ id ∈ (eventsOf lines).map LogEvent.eventId := by
  simp only [Known, List.mem_map, List.mem_filterMap, LogEvent.ofLine?_eq_some_iff]
  constructor
  · rintro ⟨line, member, e, said, same⟩
    exact ⟨e, ⟨line, member, said⟩, same⟩
  · rintro ⟨e, ⟨line, member, said⟩, same⟩
    exact ⟨line, member, e, said, same⟩

theorem eventsOf_concat (said : SaidBy line e) : eventsOf (lines ++ [line]) = eventsOf lines ++ [e] := by
  have read := LogEvent.ofLine?_eq_some_iff.2 said
  simp [read]

/-- A further line has a new identifier, repeats one or says no event, and what it says is kept, left out or
missing. -/
theorem concat_cases (lines : List Text) (line : Text) :
    (IsNone lines line ∧ eventsOf (lines ++ [line]) = eventsOf lines) ∨
      ∃ e, SaidBy line e ∧ eventsOf (lines ++ [line]) = eventsOf lines ++ [e] ∧
        ((¬Known lines e.eventId ∧
            firstById [] (eventsOf lines ++ [e]) = firstById [] (eventsOf lines) ++ [e]) ∨
          Known lines e.eventId ∧
            firstById [] (eventsOf lines ++ [e]) = firstById [] (eventsOf lines)) := by
  by_cases silent : IsNone lines line
  · have unread : LogEvent.ofLine? line = none := by
      rw [Option.eq_none_iff_forall_ne_some]
      exact fun e read => silent e (LogEvent.ofLine?_eq_some_iff.1 read)
    exact .inl ⟨silent, by simp [unread]⟩
  · obtain ⟨e, said⟩ := not_forall_not.1 silent
    refine .inr ⟨e, said, eventsOf_concat said, ?_⟩
    by_cases known : Known lines e.eventId
    · refine .inr ⟨known, firstById_append_repeated ?_⟩
      exact List.forall_mem_singleton.2 (.inr (known_iff.1 known))
    · exact .inl ⟨known, firstById_concat List.not_mem_nil (mt known_iff.2 known)⟩

/-- The counts of the three kinds of places, carried from line to line. -/
theorem countPlaces_eq (lines : List Text) :
    countPlaces IsFirst lines = (firstById [] (eventsOf lines)).length ∧
      countPlaces IsFirst lines + countPlaces IsRepeat lines = (eventsOf lines).length ∧
      countPlaces IsFirst lines + countPlaces IsRepeat lines + countPlaces IsNone lines = lines.length := by
  induction lines using List.reverseRecOn with
  | nil => simp [countPlaces_nil, firstById]
  | append_singleton lines line ih =>
    obtain ⟨kept, events, all⟩ := ih
    rw [List.length_append, List.length_singleton]
    rcases concat_cases lines line with ⟨silent, same⟩ | ⟨e, said, more, ⟨fresh, first⟩ | ⟨known, again⟩⟩
    · rw [countPlaces_concat_of_not silent.not_isFirst, countPlaces_concat_of_not silent.not_isRepeat,
        countPlaces_concat silent, same]
      omega
    · have isFirst : IsFirst lines line := ⟨e, said, fresh⟩
      have notNone : ¬IsNone lines line := fun silent => silent e said
      rw [countPlaces_concat isFirst, countPlaces_concat_of_not isFirst.not_isRepeat,
        countPlaces_concat_of_not notNone, more, first, List.length_append, List.length_append,
        List.length_singleton]
      omega
    · have isRepeat : IsRepeat lines line := ⟨e, said, known⟩
      have notFirst : ¬IsFirst lines line := fun isFirst => isFirst.not_isRepeat isRepeat
      have notNone : ¬IsNone lines line := fun silent => silent e said
      rw [countPlaces_concat_of_not notFirst, countPlaces_concat isRepeat,
        countPlaces_concat_of_not notNone, more, again, List.length_append, List.length_singleton]
      omega

/-- A kept event is said where its identifier stands first. -/
theorem exists_first_of_kept (kept : e ∈ firstById [] (eventsOf lines)) :
    ∃ before line after, lines = before ++ line :: after ∧ SaidBy line e ∧ ¬Known before e.eventId := by
  induction lines using List.reverseRecOn with
  | nil => cases kept
  | append_singleton lines line ih =>
    have old : e ∈ firstById [] (eventsOf lines) → ∃ before l after,
        lines ++ [line] = before ++ l :: after ∧ SaidBy l e ∧ ¬Known before e.eventId := by
      intro kept
      obtain ⟨before, l, after, rfl, said, fresh⟩ := ih kept
      exact ⟨before, l, after ++ [line], by simp, said, fresh⟩
    rcases concat_cases lines line with ⟨-, same⟩ | ⟨e', said, more, ⟨fresh, first⟩ | ⟨-, again⟩⟩
    · exact old (same ▸ kept)
    · rw [more, first, List.mem_append, List.mem_singleton] at kept
      rcases kept with kept | rfl
      · exact old kept
      · exact ⟨lines, line, [], rfl, said, fresh⟩
    · rw [more, again] at kept
      exact old kept

end Lines

/-- The identifiers that are known are those that objects have as a text that is not empty. -/
theorem known_iff_exists_object {lines : List Text} {id : Text} :
    Known lines id ↔ id ≠ [] ∧ ∃ line ∈ lines, ∃ fields, Json.read line = some (.obj fields) ∧
      Fields.get? fields "event_id" = some (.str id) := by
  constructor
  · rintro ⟨line, member, e, said, rfl⟩
    exact ⟨said.named, line, member, e.fields, said.object, said.id⟩
  · rintro ⟨ne, line, member, fields, object, named⟩
    let time := (LogEvent.text? fields "timestamp").getD []
    exact ⟨line, member, ⟨id, time, fields⟩, ⟨object, named, ne, LogEvent.getD_text?_eq_iff.1 rfl⟩, rfl⟩

/-- The events and the counts of a log, told from its text. -/
theorem read_accounts (raw : Text) : ∃ lines, CompleteLines raw lines ∧ Accounts lines (read raw) := by
  refine ⟨completeLines raw, completeLines_iff.2 rfl, ?_⟩
  obtain ⟨kept, events, all⟩ := countPlaces_eq (completeLines raw)
  have length : (read raw).events.length = (firstById [] (written raw)).length :=
    (events_perm raw).length_eq
  have duplicates : (read raw).stats.duplicates = countPlaces IsRepeat (completeLines raw) := by
    change (eventsOf (completeLines raw)).length - (firstById [] (eventsOf (completeLines raw))).length = _
    omega
  have parseErrors : (read raw).stats.parseErrors = countPlaces IsNone (completeLines raw) := by
    change (completeLines raw).length - (eventsOf (completeLines raw)).length = _
    omega
  refine ⟨nodup_ids_events raw, fun id => ?_, fun e member => ?_, events_before raw, rfl,
    ⟨length.symm, kept.symm⟩, duplicates, parseErrors, ?_⟩
  · rw [← known_iff_exists_object, known_iff]
    constructor
    · intro member
      exact ((firstById_sublist [] _).map _).mem (((events_perm raw).map _).mem_iff.1 member)
    · exact mem_ids_events
  · exact exists_first_of_kept ((events_perm raw).mem_iff.1 member)
  · rw [duplicates, parseErrors]
    change (completeLines raw).length = (firstById [] (eventsOf (completeLines raw))).length + _ + _
    omega

end LogContent

end RequestCompiler
