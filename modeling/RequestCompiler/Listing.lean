import RequestCompiler.Codex
import RequestCompiler.Confidence
import RequestCompiler.Json.Printer
import RequestCompiler.Log.Reader
import RequestCompiler.Registry

/-!
# Listings

Plain text renderings of bundles, codex entries, counts and log events: one line per item, in
columns as wide as their widest cell, and details with one line per field. An empty list is
a line that says so.
-/

namespace RequestCompiler.Listing

/-- The length of the longest text. -/
def widest (ts : List Text) : Nat := (ts.map List.length).foldl max 0

/-- A missing text is shown as a dash. -/
def orDash (t : Text) : Text := if t.isEmpty then "-" else t

/-- The gap between two columns. -/
def gap : Text := "  "

/-! ## Registry -/

/-- The tags of a bundle in one cell. -/
def tagsCell (b : Bundle) : Text := orDash b.domain ++ "/" ++ orDash b.task

/-- One line for each bundle: id, tags and name. -/
def bundles (bs : List Bundle) : List Text :=
  if bs.isEmpty then ["(no bundles)"]
  else
    let ids := widest (bs.map Bundle.id)
    let tags := widest (bs.map tagsCell)
    bs.map fun b => b.id.padEnd ids ++ gap ++ (tagsCell b).padEnd tags ++ gap ++ b.name

/-- The fields of a bundle, with its expansion indented below. -/
def bundle (b : Bundle) : List Text :=
  ["id:        " ++ b.id, "name:      " ++ b.name, "domain:    " ++ orDash b.domain,
    "task:      " ++ orDash b.task, "keywords:  " ++ Text.join ", " b.keywords, "expansion:"]
  ++ (Text.splitAt (unit '\n') b.expansion.pretty).map (gap ++ ·)

/-- The size and the identity of a registry. -/
def registry (r : Registry) : Text :=
  "registry ok: " ++ Text.ofNat r.bundles.length ++ " bundles, "
    ++ Text.ofNat r.profiles.length ++ " profiles, hash " ++ r.hash

/-! ## Codex -/

/-- One line for each module: letter and name. -/
def modules (ms : List Codex.CatalogModule) : List Text :=
  ms.map fun m => m.letter ++ gap ++ m.name

/-- One line for each entry: id and title. -/
def entries (es : List Codex.Entry) : List Text :=
  if es.isEmpty then ["(no entries)"]
  else
    let ids := widest (es.map (·.id))
    es.map fun e => e.id.padEnd ids ++ gap ++ e.title

/-- The greatest length of a description that is shown. -/
def descriptionLimit : Int := 320

/-- The greatest length of a content that is shown. -/
def contentLimit : Int := 4000

/-- A paragraph of its own, unless the text is empty. -/
def paragraph (t : Text) (limit : Int) : List Text :=
  if t.isEmpty then [] else [[], Codex.truncate t limit]

/-- An entry with all its texts. -/
def entry (e : Codex.Entry) : List Text :=
  [e.title, e.moduleName ++ " · " ++ orDash e.kind]
  ++ (if e.tags.isEmpty then [] else ["tags: " ++ Text.join ", " e.tags])
  ++ (if e.url.isEmpty then [] else [e.url])
  ++ paragraph e.description descriptionLimit
  ++ paragraph e.content contentLimit

/-- Counts below their label. -/
def counts (label : Text) (cs : Fields Nat) : List Text :=
  let width := widest (cs.map (·.1))
  (label ++ ":") :: cs.map fun p => gap ++ p.1.padEnd width ++ gap ++ Text.ofNat p.2

/-- All counts of a codex. -/
def statistics (s : Codex.Statistics) : List Text :=
  ["total: " ++ Text.ofNat s.total]
  ++ counts "by module" s.byModule ++ counts "by type" s.byType ++ counts "by tag" s.byTag

/-! ## Log -/

/-- The width of the column of states. -/
def stateWidth : Nat := 7

/-- One line for each event: time, state, bundle and confidence, as far as they are there. -/
def events (es : List LogEvent) : List Text :=
  if es.isEmpty then ["(no compilations logged)"]
  else
    es.map fun e =>
      let state := (LogEvent.text? e.fields "state").getD "?"
      let bundle := (LogEvent.text? e.fields "bundle_id").getD "-"
      let confidence : Text :=
        match e.fields.get? "confidence" with
        | some (.num x) => Confidence.shown x
        | _ => "-"
      Text.join gap [e.timestamp, state.padEnd stateWidth, bundle, confidence]

end RequestCompiler.Listing
