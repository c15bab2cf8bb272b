import RequestCompiler.Log.Entry
import RequestCompiler.Log.Reader
import RequestCompiler.Proofs.Json.KeyOrder
import RequestCompiler.Proofs.Json.Torn

/-!
# Entries as lines

`LogEntry.event` is what the line of an entry says under its identifier. The reader finds exactly that
in the line (`ofLine_line`); behind other text it finds it if that text is a gap, and no event at all
otherwise (`ofLine_append_line`).
-/

namespace RequestCompiler

/-- A text that is wholly a numeral is read as its value. -/
theorem Json.readNumber_eq {t : Text} {n : Binary64} (rest : (Numeral.scan t).2 = [])
    (numeral : isNumber (Numeral.scan t).1 = true) (value : (Numeral.scan t).1.value = n) :
    readNumber t = some (num n, []) := by
  subst value
  rw [← rest]
  exact if_pos numeral

/-- A confidence is written as a numeral that is read back as it. -/
theorem Confidence.spelled_number (c : Confidence) : Json.Spelled c.number := by
  have each : ∀ s : Fin 8, (Numeral.scan (Json.numberText (mk s).number)).2 = [] ∧
      Json.isNumber (Numeral.scan (Json.numberText (mk s).number)).1 = true ∧
      (Numeral.scan (Json.numberText (mk s).number)).1.value = (mk s).number ∧
      (∃ u ∈ (Json.numberText (mk s).number).head?, Numeral.isDigit u = true) ∧
      ((Json.numberText (mk s).number).all fun u => 0x20 ≤ u.toNat ∧ u.toNat < 0x80) = true := by
    decide +kernel
  cases c with
  | mk s =>
    obtain ⟨rest, numeral, value, ⟨u, first, digit⟩, ascii⟩ := each s
    refine ⟨?_, Json.readNumber_eq rest numeral value, by simpa using ascii⟩
    obtain ⟨r, text⟩ := List.head?_eq_some_iff.1 first
    exact ⟨u, r, text, .inr digit⟩

namespace LogEntry

/-- What the line of an entry says. -/
def event (e : LogEntry) (id : Text) : LogEvent :=
  ⟨id, e.timestamp, (Text.ofString "event_id", .str id) :: e.fields⟩

theorem line_eq (e : LogEntry) (id : Text) : e.line id = (Json.obj (e.event id).fields).compact := rfl

theorem regular_fields (e : LogEntry) (id : Text) : Json.Regular (.obj (e.event id).fields) := by
  refine .obj (Fields.ofList_eq_self ?_ ?_) ?_
  · change List.Nodup (List.map Text.ofString ["event_id", "timestamp", "registry_hash",
      "input_hash", "audience", "mode", "applied_mode", "return_mode", "state", "bundle_id",
      "confidence"])
    decide
  · change ∀ k ∈ List.map Text.ofString ["event_id", "timestamp", "registry_hash", "input_hash",
      "audience", "mode", "applied_mode", "return_mode", "state", "bundle_id", "confidence"],
      Fields.index? k = none
    decide
  · have bundle : Json.Regular (e.bundleId.elim .null .str) := by
      cases e.bundleId with
      | none => exact .null
      | some id => exact .str id
    simp only [event, fields, List.forall_mem_cons]
    exact ⟨.str _, .str _, .str _, .str _, .str _, .str _, .str _, .str _, .str _, bundle,
      .num e.confidence.spelled_number, nofun⟩

/-- The line of an entry is a single one. -/
theorem feed_not_mem_line (e : LogEntry) (id : Text) : unit '\n' ∉ e.line id :=
  Json.feed_not_mem_compact (e.regular_fields id)

/-- The line of an entry survives any encoding as bytes. -/
theorem wellFormed_line (e : LogEntry) (id : Text) : (e.line id).wellFormed = true :=
  Json.wellFormed_compact (e.regular_fields id)

theorem keyedObject_line (e : LogEntry) (id : Text) : Json.KeyedObject (e.line id) :=
  Json.keyedObject_compact (e.regular_fields id) (w := unit 'e') rfl (by decide) (by decide)

theorem line_ne_nil (e : LogEntry) (id : Text) : e.line id ≠ [] := by
  obtain ⟨w, k, text, -⟩ := (e.keyedObject_line id).opens
  rw [text]
  exact List.cons_ne_nil _ _

/-- The line of an entry is read as what it says, also behind a gap. -/
theorem ofLine_gap_line {gap id : Text} (e : LogEntry) (blank : Json.IsGap gap) (named : id ≠ []) :
    LogEvent.ofLine? (gap ++ e.line id) = some (e.event id) := by
  have own : LogEvent.text? (e.event id).fields "event_id" = some id := rfl
  have time : LogEvent.text? (e.event id).fields "timestamp" = some e.timestamp := rfl
  have solid : ¬id.isEmpty = true := by simpa using named
  rw [LogEvent.ofLine?, line_eq, Json.read_gap_compact blank (e.regular_fields id)]
  simp only [own, time, if_neg solid, Option.getD_some]
  rfl

theorem ofLine_line {id : Text} (e : LogEntry) (named : id ≠ []) :
    LogEvent.ofLine? (e.line id) = some (e.event id) :=
  have blank : Json.IsGap [] := nofun
  e.ofLine_gap_line blank named

/-- Behind other text the line of an entry says something only if that text is a gap. -/
theorem ofLine_append_line {r id : Text} (e : LogEntry) (torn : ¬Json.IsGap r) :
    LogEvent.ofLine? (r ++ e.line id) = none := by
  have unread : Json.read (r ++ e.line id) = none := by
    by_contra some
    obtain ⟨j, answer⟩ := Option.ne_none_iff_exists'.1 some
    exact torn ((e.keyedObject_line id).isGap_of_read answer)
  rw [LogEvent.ofLine?, unread]

end LogEntry

end RequestCompiler
