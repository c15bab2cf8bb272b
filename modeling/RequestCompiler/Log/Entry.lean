import RequestCompiler.Compile
import RequestCompiler.Json.Printer

/-!
# Compile log entries

Every finished compilation is logged as one entry, whether it was rendered or not. The text of
the request is not logged, its digest is; together with the registry's digest an entry is
enough to repeat the decision from the same text. `line` is the entry as a line of the log.
-/

namespace RequestCompiler

/-- What is logged of a compilation. -/
structure LogEntry where
  timestamp : Text
  registryHash : Text
  inputHash : Text
  audience : Audience
  mode : Mode
  appliedMode : Mode
  returnMode : ReturnMode
  state : CompileState
  bundleId : Option Text
  confidence : Confidence
deriving DecidableEq, Repr

namespace LogEntry

/-- The digest of a request's text. -/
def inputHashOf (text : Text) : Text := Sha256.hexOfText text

/-- The entry for a result on a text. -/
def ofCompilation (text : Text) (c : Compilation) (registryHash timestamp : Text) : LogEntry where
  timestamp := timestamp
  registryHash := registryHash
  inputHash := inputHashOf text
  audience := c.audience
  mode := c.mode
  appliedMode := c.appliedMode
  returnMode := c.returnMode
  state := c.state
  bundleId := c.matched.bundle.map Bundle.id
  confidence := c.confidence

/-- The fields of an entry in their order. -/
def fields (e : LogEntry) : Fields Json :=
  [("timestamp", .str e.timestamp), ("registry_hash", .str e.registryHash),
    ("input_hash", .str e.inputHash), ("audience", .str e.audience.name),
    ("mode", .str e.mode.name), ("applied_mode", .str e.appliedMode.name),
    ("return_mode", .str e.returnMode.name), ("state", .str e.state.name),
    ("bundle_id", e.bundleId.elim .null .str), ("confidence", .num e.confidence.number)]

def json (e : LogEntry) : Json := .obj e.fields

/-- The line of an entry under an identifier. -/
def line (e : LogEntry) (eventId : Text) : Text :=
  (Json.obj ((Text.ofString "event_id", .str eventId) :: e.fields)).compact

end LogEntry

namespace Registry

/-- Compiles a request and records its entry, stamped with the time drawn for it. A request
that fails is not recorded, and a record that fails takes the place of the result. -/
def compileLogged {m : Type → Type} {ε : Type} [Monad m] (r : Registry) (now : m Text)
    (record : LogEntry → m (Except ε Unit)) (ofViolation : InvariantViolation → ε)
    (q : Request) : m (Except ε Compilation) :=
  match r.compile q with
  | .error e => return .error (ofViolation e)
  | .ok c => do
    let time ← now
    match ← record (.ofCompilation q.text c r.hash time) with
    | .error e => return .error e
    | .ok () => return .ok c

end Registry

end RequestCompiler
