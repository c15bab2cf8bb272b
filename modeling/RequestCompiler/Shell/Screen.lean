import RequestCompiler.Registry
import RequestCompiler.Style

/-!
# What the shell shows besides replies

The banner at the start, the prompt and the help text.
-/

namespace RequestCompiler.Shell

/-- The style that stands for an audience. -/
def audienceStyle : Audience → Style
  | .dev => .accent
  | .audit => .caution
  | .exec => .success

/-- The prompt names the audience. -/
def prompt (paint : Style.Painter) (a : Audience) : Text :=
  paint .accentDim "[" ++ paint Style.accent.inBold "comptext"
    ++ paint .accentDim ":" ++ paint (audienceStyle a) a.name
    ++ paint .accentDim "]" ++ paint .accentDim " ❯ "

/-- The number of units of a digest that are shown. -/
def shortHash : Nat := 8

/-- The banner with the registry in use. -/
def header (paint : Style.Painter) (r : Registry) (path : Text) : Text :=
  let feed : Text := [unit '\n']
  let dot := paint .dim "·"
  feed
    ++ "  " ++ paint Style.accent.inBold "C O M P T E X T" ++ feed
    ++ "  " ++ paint .muted "natural language → CompText DSL" ++ feed
    ++ feed ++ "  " ++ paint .dim (Text.repeated 60 '─') ++ feed ++ feed
    ++ "  " ++ paint .muted "registry"
    ++ "  " ++ paint .body path
    ++ "  " ++ dot
    ++ "  " ++ paint .body (Text.ofNat r.bundles.length ++ " bundles")
    ++ "  " ++ dot
    ++ "  " ++ paint .muted "hash" ++ " "
    ++ paint .accentDim (r.hash.take shortHash) ++ feed
    ++ "  " ++ paint .dim "type '/help' for commands; anything else is compiled" ++ feed

/-- The column at which descriptions begin. -/
def helpColumn : Nat := 26

/-- The commands by topic, with their descriptions. -/
def helpSections : List (Text × List (Text × Text)) := [
  ("compile", [
    ("<any text>", "compile the request with the current settings"),
    ("/audience <a>", "dev | audit | exec"),
    ("/mode <m>", "bundle_only | allow_inline_fallback"),
    ("/return <r>", "dsl_only | dsl_plus_confidence | dsl_plus_explanation"),
    ("/settings", "show the current settings")]),
  ("registry", [
    ("/bundles", "list registered bundles"),
    ("/reload", "reload the registry file")]),
  ("codex", [
    ("/codex <query>", "search the codex")]),
  ("system", [
    ("/help", "show this help"),
    ("/exit  Ctrl+C", "exit")])]

/-- The line of a topic. -/
def helpTopic (paint : Style.Painter) (label : Text) : Text :=
  unit '\n' :: "  " ++ paint .dim "─── " ++ paint .accent label
    ++ [unit '\n']

/-- The line of a command. -/
def helpCommand (paint : Style.Painter) (name description : Text) : Text :=
  let pad := Text.repeated (max 1 (helpColumn - name.length)) ' '
  "  " ++ paint .bright name ++ paint .dim (pad ++ description)
    ++ [unit '\n']

/-- The help text. -/
def help (paint : Style.Painter) : Text :=
  helpSections.flatMap fun s =>
    helpTopic paint s.1 ++ s.2.flatMap fun c => helpCommand paint c.1 c.2

end RequestCompiler.Shell
