import RequestCompiler.Text.Blank
import RequestCompiler.Text.Lower

/-!
# The closed vocabularies

A request names an audience, a compile mode and a return mode. Each is one of a few words,
read without regard to case and surrounding blanks.
-/

namespace RequestCompiler

/-- Whom the compiled directives address. -/
inductive Audience
  | dev
  | audit
  | exec
deriving DecidableEq, Repr

/-- How directives may be produced. Only bundles are: the inline fallback is accepted and
compiled as bundles only. -/
inductive Mode
  | bundleOnly
  | allowInlineFallback
deriving DecidableEq, Repr

/-- Which parts of a result are shown. -/
inductive ReturnMode
  | dslOnly
  | dslPlusConfidence
  | dslPlusExplanation
deriving DecidableEq, Repr

/-- The member of a vocabulary that a text names. -/
def named? {α : Type} (members : List α) (name : α → Text) (t : Text) : Option α :=
  members.find? fun a => name a == t.trim.lower

namespace Audience

def all : List Audience := [dev, audit, exec]

def name : Audience → Text
  | dev => "dev"
  | audit => "audit"
  | exec => "exec"

/-- The profile that an audience is bound to. -/
def profileId : Audience → Text
  | dev => "profile.dev.v1"
  | audit => "profile.audit.v1"
  | exec => "profile.exec.v1"

/-- The audience that a profile is bound to. -/
def ofProfileId? (id : Text) : Option Audience := all.find? fun a => a.profileId == id

def ofText? (t : Text) : Option Audience := named? all name t

end Audience

namespace Mode

def all : List Mode := [bundleOnly, allowInlineFallback]

def name : Mode → Text
  | bundleOnly => "bundle_only"
  | allowInlineFallback => "allow_inline_fallback"

def ofText? (t : Text) : Option Mode := named? all name t

/-- The mode that runs when a mode is asked for. -/
def applied : Mode → Mode
  | bundleOnly => bundleOnly
  | allowInlineFallback => bundleOnly

end Mode

namespace ReturnMode

def all : List ReturnMode := [dslOnly, dslPlusConfidence, dslPlusExplanation]

def name : ReturnMode → Text
  | dslOnly => "dsl_only"
  | dslPlusConfidence => "dsl_plus_confidence"
  | dslPlusExplanation => "dsl_plus_explanation"

def ofText? (t : Text) : Option ReturnMode := named? all name t

end ReturnMode

end RequestCompiler
