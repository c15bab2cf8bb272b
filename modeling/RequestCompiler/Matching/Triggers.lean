import RequestCompiler.Text

/-!
# Trigger words

A bundle earns a bonus when a request contains a trigger word of its domain, and another for
its task. A domain or task without an entry in its table earns none.
-/

namespace RequestCompiler.Matching

/-- The trigger words of each tag. -/
abbrev TriggerTable := List (Text × List Text)

/-- A table row from literals. -/
def triggerRow (tag : String) (words : List String) : Text × List Text :=
  (Text.ofString tag, words.map Text.ofString)

def domainTriggers : TriggerTable := [
  triggerRow "code" ["function", "class", "refactor", "debug", "performance"],
  triggerRow "security" ["security", "vulnerability", "cve", "owasp"],
  triggerRow "docs" ["docs", "documentation", "readme", "openapi", "swagger"],
  triggerRow "devops" ["ci", "cd", "github actions", "kubernetes", "helm", "deploy"],
  triggerRow "data" ["sql", "query", "schema", "etl", "pipeline"],
  triggerRow "testing" ["test", "coverage", "regression", "qa"]]

def taskTriggers : TriggerTable := [
  triggerRow "review" ["review", "audit", "inspect"],
  triggerRow "optimize" ["optimize", "faster", "speed up", "latency"],
  triggerRow "debug" ["bug", "error", "crash", "stack trace", "exception"],
  triggerRow "scan" ["scan", "vulnerab", "exploit"],
  triggerRow "document" ["document", "explain", "write up"],
  triggerRow "deploy" ["deploy", "release", "rollout"],
  triggerRow "test" ["unit test", "test case", "test suite"]]

/-- The text contains a trigger word of the tag. -/
def triggers (table : TriggerTable) (tag text : Text) : Bool :=
  match table.find? fun row => row.1 == tag with
  | some row => row.2.any fun word => Text.contains word text
  | none => false

end RequestCompiler.Matching
