import RequestCompiler.Directive.Parser
import RequestCompiler.Registry

/-!
# Checking directives against a registry

`Registry.check` parses a program and asks that every id it names is registered: the profile
among the profiles, each bundle among the bundles. What the compiler renders always passes;
a program from elsewhere may not.
-/

namespace RequestCompiler

/-- Why a program is refused. -/
inductive CheckError
  | parse (error : ParseError)
  | unknownProfile (id : Text) (line : Nat)
  | unknownBundle (id : Text) (line : Nat)
deriving DecidableEq, Repr

namespace CheckError

def issue : CheckError → Issue
  | parse e =>
    ⟨e.message, some ("line " ++ Text.ofNat e.line ++ ", column " ++ Text.ofNat e.column)⟩
  | unknownProfile id line =>
    ⟨"Unknown profile: \"" ++ id ++ "\"", some ("line " ++ Text.ofNat line)⟩
  | unknownBundle id line =>
    ⟨"Unknown bundle: \"" ++ id ++ "\"", some ("line " ++ Text.ofNat line)⟩

end CheckError

namespace Registry

/-- The directives of a program that name nothing registered. -/
def strangers (r : Registry) (p : Program) : List CheckError :=
  (if r.hasProfile p.profile.id then [] else [.unknownProfile p.profile.id p.profile.line])
  ++ (p.bundles.filter fun b => !r.hasBundle b.id).map fun b => .unknownBundle b.id b.line

/-- Parses a program whose ids are all registered. -/
def check (r : Registry) (source : Text) : Except (List CheckError) Program :=
  match Program.parse source with
  | .error errors => .error (errors.map .parse)
  | .ok p => if (r.strangers p).isEmpty then .ok p else .error (r.strangers p)

end Registry

end RequestCompiler
