import RequestCompiler.Json
import RequestCompiler.Text.Blank

/-!
# The module catalog

Codex entries are filed under thirteen lettered modules. A module is looked up by its letter,
of either case, or by its full name.
-/

namespace RequestCompiler.Codex

/-- A module of the catalog. -/
structure CatalogModule where
  letter : Text
  name : Text
deriving DecidableEq, Repr

namespace CatalogModule

/-- The name under which entries are filed. -/
def fullName (m : CatalogModule) : Text := "Module " ++ m.letter ++ ": " ++ m.name

def json (m : CatalogModule) : Json :=
  .object [("letter", .str m.letter), ("name", .str m.name), ("fullName", .str m.fullName)]

end CatalogModule

/-- The modules in the order of their letters. -/
def catalog : List CatalogModule := [
  ⟨"A", "General Commands"⟩, ⟨"B", "Programming"⟩, ⟨"C", "Visualization"⟩, ⟨"D", "AI Control"⟩,
  ⟨"E", "Data Analysis & ML"⟩, ⟨"F", "Documentation"⟩, ⟨"G", "Testing & QA"⟩,
  ⟨"H", "Database & Data Modeling"⟩, ⟨"I", "Security & Compliance"⟩,
  ⟨"J", "DevOps & Deployment"⟩, ⟨"K", "Frontend & UI"⟩, ⟨"L", "Data Pipelines & ETL"⟩,
  ⟨"M", "MCP Integration"⟩]

/-- The capital of a letter as far as it is one of `A` to `Z`: of the small ASCII letters, and
of the small dotless i, whose capital is `I`. -/
def capitalUnit (u : UInt16) : UInt16 :=
  if unit 'a' ≤ u ∧ u ≤ unit 'z' then u - 32 else if u = 0x131 then unit 'I' else u

/-- The module of a letter or full name; blanks around it are ignored. -/
def resolveModule? (t : Text) : Option CatalogModule :=
  match t.trim with
  | [u] => catalog.find? fun m => m.letter == [capitalUnit u]
  | key => catalog.find? fun m => m.fullName == key

end RequestCompiler.Codex
