import RequestCompiler.Json.Reader
import RequestCompiler.Text.Blank

/-!
# Reading the compile log

The log is read from its raw text. A line is an event if it is a JSON object with a non-empty
text `event_id`; of several lines with one id the first counts. Text after the last line end
is the torn rest of an interrupted write and is left out. Events come in the order of their
timestamps, then of their ids, so logs that were merged read the same in any order.
-/

namespace RequestCompiler

/-- A line of the log. -/
structure LogEvent where
  eventId : Text
  timestamp : Text
  fields : Fields Json
deriving Repr

/-- What was found while reading. -/
structure LogStats where
  totalLines : Nat
  parsedEvents : Nat
  duplicates : Nat
  parseErrors : Nat
  partialTrailingLine : Bool
deriving DecidableEq, Repr

/-- The events of a log, and what was found. -/
structure LogContent where
  events : List LogEvent
  stats : LogStats

namespace LogEvent

/-- The text of a field. -/
def text? (fields : Fields Json) (key : Text) : Option Text :=
  match fields.get? key with
  | some (.str t) => some t
  | _ => none

/-- The event of a line. -/
def ofLine? (line : Text) : Option LogEvent :=
  match Json.read line with
  | some (.obj fields) =>
    match text? fields "event_id" with
    | some id =>
      if id.isEmpty then none else some ⟨id, (text? fields "timestamp").getD [], fields⟩
    | none => none
  | _ => none

/-- Order by timestamp, then by id, by code units. -/
def le (a b : LogEvent) : Bool :=
  if a.timestamp = b.timestamp then Text.le a.eventId b.eventId else Text.le a.timestamp b.timestamp

def json (e : LogEvent) : Json :=
  .object [("event_id", .str e.eventId), ("timestamp", .str e.timestamp), ("fields", .obj e.fields)]

end LogEvent

namespace LogStats

def json (s : LogStats) : Json :=
  .object [("totalLines", .nat s.totalLines), ("parsedEvents", .nat s.parsedEvents),
    ("duplicates", .nat s.duplicates), ("parseErrors", .nat s.parseErrors),
    ("partialTrailingLine", .bool s.partialTrailingLine)]

end LogStats

namespace LogContent

/-- The text does not end with a line end. -/
def isTorn (raw : Text) : Bool := !raw.isEmpty && raw.getLast? != some (unit '\n')

/-- The lines that are complete and not empty. -/
def completeLines (raw : Text) : List Text :=
  ((raw.splitAt (unit '\n')).dropLast).filter fun l => !l.isEmpty

/-- The events whose id no earlier event has. -/
def firstById (seen : List Text) : List LogEvent → List LogEvent
  | [] => []
  | e :: r =>
    if seen.contains e.eventId then firstById seen r
    else e :: firstById (seen ++ [e.eventId]) r

/-- Reads the raw text of a log. -/
def read (raw : Text) : LogContent :=
  let lines := completeLines raw
  let parsed := lines.filterMap LogEvent.ofLine?
  let kept := firstById [] parsed
  { events := kept.mergeSort LogEvent.le
    stats := {
      totalLines := lines.length
      parsedEvents := kept.length
      duplicates := parsed.length - kept.length
      parseErrors := lines.length - parsed.length
      partialTrailingLine := isTorn raw } }

end LogContent

end RequestCompiler
