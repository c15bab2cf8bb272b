import RequestCompiler.Binary64.Decimal
import RequestCompiler.Codex.Catalog
import RequestCompiler.Codex.Entry
import RequestCompiler.Issue
import RequestCompiler.Json.Printer
import RequestCompiler.Table
import RequestCompiler.Text.Lower

/-!
# The codex

The codex is a list of reference entries with distinct ids, built once from a document and
then only queried. Every query answers entries in the order of the document. Statistics count
how often each module, type and tag occurs.
-/

namespace RequestCompiler

/-- The entries of a knowledge base, in the order of its document. -/
structure Codex where
  entries : List Codex.Entry
deriving DecidableEq, Repr

namespace Codex

/-- A codex is unusable, or an entry does not exist. -/
inductive Error
  | noModules
  | notObject (index : Nat)
  | withoutId (index : Nat)
  | repeatedId (id : Text)
  | notFound (id : Text)
  | fileMissing (path : Text)
  | unreadable (path : Text)
  | malformed (path : Text)
deriving DecidableEq, Repr

namespace Error

def message : Error → Text
  | noModules => "Codex document must be an object with a \"modules\" list"
  | notObject i => "Codex entry " ++ Text.ofNat i ++ " must be an object"
  | withoutId i => "Codex entry " ++ Text.ofNat i ++ " has no id"
  | repeatedId id => "Duplicate codex entry id: \"" ++ id ++ "\""
  | notFound id => "Codex entry not found: " ++ id
  | fileMissing path => "Codex file not found: " ++ path
  | unreadable path => "Cannot read codex " ++ path ++ ": " ++ unexplained
  | malformed path => "Invalid JSON in codex " ++ path ++ ": " ++ unexplained

end Error

namespace QueryError

def message : QueryError → Text
  | blankId => "Entry id cannot be empty"
  | blankQuery => "Query string cannot be empty"
  | queryTooLong => "Query too long (max " ++ Text.ofNat maxQueryLength ++ " characters)"
  | maxNotPositive max => "maxResults must be a positive integer, got " ++ max.text

end QueryError

/-- A text field of an entry; any other value counts as the empty text. -/
def textField (entry : Json) (field : Text) : Text :=
  match entry.field? field with
  | some (.str t) => t
  | _ => []

/-- The texts of a list field; other items are left out. -/
def textsField (entry : Json) (field : Text) : List Text :=
  match entry.field? field with
  | some (.arr items) => items.filterMap fun j => match j with | .str t => some t | _ => none
  | _ => []

/-- Reads the entry at a position of the document. -/
def readEntry (index : Nat) (entry : Json) : Except Error Entry :=
  if !entry.isObject then .error (.notObject index)
  else if (textField entry "id").isEmpty then .error (.withoutId index)
  else
    .ok {
      id := textField entry "id"
      url := textField entry "url"
      title := sanitize (textField entry "title")
      description := sanitize (textField entry "description")
      moduleName := textField entry "module"
      kind := textField entry "type"
      tags := textsField entry "tags"
      content := sanitize (textField entry "content")
      createdTime := textField entry "created_time"
      lastEditedTime := textField entry "last_edited_time" }

/-- Reads the entries from a position on; the first defect ends the reading. -/
def readEntries (index : Nat) : List Json → Except Error (List Entry)
  | [] => .ok []
  | j :: r => do
    let entry ← readEntry index j
    let rest ← readEntries (index + 1) r
    return entry :: rest

/-- The first id that an earlier entry has too. -/
def repeatedId? (seen : List Text) : List Entry → Option Text
  | [] => none
  | e :: r => if seen.contains e.id then some e.id else repeatedId? (seen ++ [e.id]) r

/-- Builds a codex from a document. -/
def ofDocument (document : Json) : Except Error Codex :=
  match document.field? "modules" with
  | some (.arr items) => do
    let entries ← readEntries 0 items
    match repeatedId? [] entries with
    | some id => .error (.repeatedId id)
    | none => .ok ⟨entries⟩
  | _ => .error .noModules

/-- The two ways in which a lookup fails. -/
inductive LookupError
  | codex (error : Error)
  | query (error : QueryError)
deriving DecidableEq, Repr

namespace LookupError

def message : LookupError → Text
  | codex e => e.message
  | query e => e.message

end LookupError

/-- The entries by their ids. -/
def index (c : Codex) : Table Entry := Table.ofList (c.entries.map fun e => (e.id, e))

/-- The entry with an id. -/
def entry (c : Codex) (id : Text) : Except LookupError Entry :=
  if id.trim.isEmpty then .error (.query .blankId)
  else
    match Fields.get? c.index id with
    | some e => .ok e
    | none => .error (.codex (.notFound id))

/-- The content of the entry with an id. -/
def content (c : Codex) (id : Text) : Except LookupError Text := (c.entry id).map Entry.content

/-- The entries filed under a module, which is named by letter or full name; a name outside
the catalog is taken as it is. -/
def byModule (c : Codex) (name : Text) : List Entry :=
  let full := ((resolveModule? name).map CatalogModule.fullName).getD name
  c.entries.filter fun e => e.moduleName == full

/-- The entries that carry a tag. -/
def byTag (c : Codex) (tag : Text) : List Entry := c.entries.filter fun e => e.tags.contains tag

/-- The entries of a type. -/
def byType (c : Codex) (kind : Text) : List Entry := c.entries.filter fun e => e.kind == kind

def defaultMaxResults : Binary64 := Binary64.ofNat 20

/-- No search answers more entries than this. -/
def maxSearchResults : Nat := 100

/-- The needle occurs in the lower-cased title, description, or tags joined by spaces. -/
def isHit (needle : Text) (e : Entry) : Bool :=
  Text.contains needle e.title.lower || Text.contains needle e.description.lower
    || Text.contains needle (Text.join " " e.tags).lower

/-- The count that a search is limited to, if it is asked for a positive integer. -/
def searchLimit (max : Binary64) : Except QueryError Nat :=
  match max.toInt? with
  | some n => if n < 1 then .error (.maxNotPositive max) else .ok (min n.toNat maxSearchResults)
  | none => .error (.maxNotPositive max)

/-- Goes through entries for what contains the needle, until as many as the limit are found. -/
def collectHits (needle : Text) (limit : Nat) (found : List Entry) : List Entry → List Entry
  | [] => found
  | e :: r =>
    if isHit needle e then
      if limit ≤ (found ++ [e]).length then found ++ [e]
      else collectHits needle limit (found ++ [e]) r
    else collectHits needle limit found r

/-- The first entries, up to the limit, that contain the query in any case of letters. -/
def search (c : Codex) (text : Text) (max : Binary64) : Except QueryError (List Entry) := do
  let needle ← query text
  let limit ← searchLimit max
  return collectHits needle.lower limit [] c.entries

/-- Counts over the whole codex. -/
structure Statistics where
  total : Nat
  byModule : Fields Nat
  byType : Fields Nat
  byTag : Fields Nat
deriving DecidableEq, Repr

/-- Counts one more occurrence of a text. -/
def countOne (counts : Table Nat) (t : Text) : Table Nat :=
  counts.set t ((Fields.get? counts t).getD 0 + 1)

/-- How often each text occurs. The texts come in ascending order, except that those which
are array indices come first as in every set of fields. -/
def tally (ts : List Text) : Fields Nat :=
  Fields.ofList (Json.sortByKey (ts.foldl countOne []))

def statistics (c : Codex) : Statistics where
  total := c.entries.length
  byModule := tally (c.entries.map (·.moduleName))
  byType := tally (c.entries.map (·.kind))
  byTag := tally (c.entries.flatMap (·.tags))

namespace Statistics

/-- Counts as a value. -/
def countsJson (counts : Fields Nat) : Json := .obj (counts.map fun p => (p.1, Json.nat p.2))

def json (s : Statistics) : Json :=
  .object [("total", .nat s.total), ("byModule", countsJson s.byModule),
    ("byType", countsJson s.byType), ("byTag", countsJson s.byTag)]

end Statistics

end Codex

end RequestCompiler
