import RequestCompiler.Compile
import RequestCompiler.Json

/-!
# Showing a compilation

The return mode decides what of a result is shown: the text alone, with confidence and
clarification, or with the explanation as well. The clarification question is shown in every
mode. `report` is the plain text, `payload` the structured form.
-/

namespace RequestCompiler.Compilation

/-- An optional text, where a missing one is the word null. -/
def orNull (t : Option Text) : Text := t.getD "null"

/-- A line of a label and its text. -/
def labelled (label : String) (t : Text) : Text := label ++ ": " ++ t

/-- The lines after the heading and the directives. -/
def details (c : Compilation) : List Text :=
  match c.returnMode with
  | .dslOnly =>
    match c.clarification with
    | some question => [[], labelled "clarification" question]
    | none => []
  | _ =>
    [[], labelled "confidence" (Confidence.shown c.confidence.number),
      labelled "clarification" (orNull c.clarification)]
    ++ c.explanation.toList.map (labelled "explanation")

/-- The result as plain text. -/
def report (c : Compilation) : Text :=
  Text.join [unit '\n'] (Text.ofString "dsl:" :: c.dsl :: c.details)

/-- An optional text as a value, null if missing. -/
def textOrNull : Option Text → Json
  | some t => .str t
  | none => .null

/-- The result as a value. -/
def payload (c : Compilation) : Json :=
  let dsl : Text × Json := ("dsl", .str c.dsl)
  match c.returnMode with
  | .dslOnly =>
    .obj (dsl :: c.clarification.toList.map fun t => (Text.ofString "clarification", Json.str t))
  | _ =>
    .obj ([dsl, ("confidence", .num c.confidence.number),
      ("clarification", textOrNull c.clarification)]
      ++ c.explanation.toList.map fun t => (Text.ofString "explanation", Json.str t))

end RequestCompiler.Compilation
