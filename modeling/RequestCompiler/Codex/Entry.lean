import RequestCompiler.Json
import RequestCompiler.Text.Blank

/-!
# Codex entries and their texts

The texts of an entry lose their control characters when the codex is built. `truncate`
shortens a text to a limit counted in code units, and `query` is the accepted form of a search
query.
-/

namespace RequestCompiler.Codex

/-- A reference entry. -/
structure Entry where
  id : Text
  url : Text
  title : Text
  description : Text
  moduleName : Text
  kind : Text
  tags : List Text
  content : Text
  createdTime : Text
  lastEditedTime : Text
deriving DecidableEq, Repr

namespace Entry

def json (e : Entry) : Json :=
  .object [("id", .str e.id), ("url", .str e.url), ("title", .str e.title),
    ("description", .str e.description), ("module", .str e.moduleName), ("type", .str e.kind),
    ("tags", .texts e.tags), ("content", .str e.content), ("created_time", .str e.createdTime),
    ("last_edited_time", .str e.lastEditedTime)]

end Entry

/-- A control character other than tab and line feed. -/
def isControl (u : UInt16) : Bool := u < 9 || (10 < u && u < 32)

/-- The text without control characters. -/
def sanitize (t : Text) : Text := t.filter fun u => !isControl u

/-- The limit of a text that is cut without one being asked for. -/
def defaultLimit : Int := 1000

/-- What a cut text ends in. -/
def ellipsis : Text := "..."

/-- The text if it has at most `limit` units; otherwise its start followed by the suffix,
`limit` units in all, or the start of the suffix if the limit does not exceed it. -/
def truncate (t : Text) (limit : Int := defaultLimit) (suffix : Text := ellipsis) : Text :=
  if (t.length : Int) ≤ limit then t
  else if limit ≤ suffix.length then suffix.take limit.toNat
  else t.take (limit - suffix.length).toNat ++ suffix

/-- A query or a lookup is out of bounds. -/
inductive QueryError
  | blankId
  | blankQuery
  | queryTooLong
  | maxNotPositive (max : Binary64)
deriving DecidableEq, Repr

/-- The greatest length of a query, in code units. -/
def maxQueryLength : Nat := 200

/-- The trimmed query, unless it is blank or too long. -/
def query (t : Text) : Except QueryError Text :=
  if t.trim.isEmpty then .error .blankQuery
  else if maxQueryLength < t.trim.length then .error .queryTooLong
  else .ok t.trim

end RequestCompiler.Codex
