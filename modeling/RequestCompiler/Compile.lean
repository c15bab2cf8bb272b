import RequestCompiler.Confidence
import RequestCompiler.Directive
import RequestCompiler.Matching

/-!
# Compiling requests

A request is matched against the registry. If the confidence is high enough the answer is the
canonical text of the audience's profile and the selected bundle; otherwise it is a fixed
clarification question and no text. The only error is a delta that cannot be written.
-/

namespace RequestCompiler

/-- The two outcomes of a compilation. -/
inductive CompileState
  | render
  | clarify
deriving DecidableEq, Repr

namespace CompileState

def name : CompileState → Text
  | render => "render"
  | clarify => "clarify"

end CompileState

/-- A request as a caller states it; what is missing takes its default. -/
structure Request where
  text : Text
  audience : Option Audience
  mode : Option Mode
  returnMode : Option ReturnMode
  deltas : Option (List Delta)

namespace Request

/-- A request with all defaults. -/
def ofText (t : Text) : Request := ⟨t, none, none, none, none⟩

def audienceOrDefault (q : Request) : Audience := q.audience.getD .dev

def modeOrDefault (q : Request) : Mode := q.mode.getD .bundleOnly

def returnModeOrDefault (q : Request) : ReturnMode := q.returnMode.getD .dslPlusConfidence

def deltasOrDefault (q : Request) : List Delta := q.deltas.getD []

end Request

/-- The result of a compilation. -/
structure Compilation where
  state : CompileState
  dsl : Text
  confidence : Confidence
  clarification : Option Text
  explanation : Option Text
  matched : Match
  audience : Audience
  mode : Mode
  appliedMode : Mode
  returnMode : ReturnMode

/-- The question that is asked instead of rendering. -/
def clarificationQuestion : Text :=
  "Do you mean code review, performance optimization, debugging, security scan, "
    ++ "or documentation? Please pick one."

namespace Registry

/-- The canonical text of an audience's profile and registered bundles. -/
def canonicalize (r : Registry) (audience : Audience) (bundleIds : List Text)
    (deltas : List Delta) : Except InvariantViolation Text :=
  match bundleIds.find? fun id => !r.hasBundle id with
  | some id => .error (.unknownBundle id)
  | none => Program.render (r.profileFor audience).id bundleIds deltas

/-- The result for a request that is not rendered. -/
def clarified (q : Request) (m : Match) : Compilation where
  state := .clarify
  dsl := []
  confidence := .ofScore m.adjustedScore
  clarification := some clarificationQuestion
  explanation := none
  matched := m
  audience := q.audienceOrDefault
  mode := q.modeOrDefault
  appliedMode := q.modeOrDefault.applied
  returnMode := q.returnModeOrDefault

/-- The result for a request that is rendered as `dsl`. -/
def rendered (q : Request) (m : Match) (dsl : Text) : Compilation where
  state := .render
  dsl := dsl
  confidence := .ofScore m.adjustedScore
  clarification := none
  explanation := if q.returnModeOrDefault = .dslPlusExplanation then some m.explanation else none
  matched := m
  audience := q.audienceOrDefault
  mode := q.modeOrDefault
  appliedMode := q.modeOrDefault.applied
  returnMode := q.returnModeOrDefault

/-- The bundle that a match renders: the selected one, if the confidence is high enough. -/
def renderedBundle? (m : Match) : Option Bundle :=
  m.bundle.filter fun _ => (Confidence.ofScore m.adjustedScore).meets

/-- Compiles a request. -/
def compile (r : Registry) (q : Request) : Except InvariantViolation Compilation :=
  let m := Matching.run r q.text
  match renderedBundle? m with
  | none => .ok (clarified q m)
  | some b =>
    (r.canonicalize q.audienceOrDefault [b.id] q.deltasOrDefault).map (rendered q m)

end Registry

end RequestCompiler
