import RequestCompiler.Json.Printer
import RequestCompiler.Sha256
import RequestCompiler.Vocabulary

/-!
# Bundles, profiles and the registry

A registry is the closed world of directives: three profiles, one for each audience, and the
bundles in the order of registration, which decides ties. It never changes; a reload makes a
new one. `hash` is the digest of the canonical text of its whole content.
-/

namespace RequestCompiler

/-- A vetted bundle: what it is matched by, and content that is passed through unread. -/
structure Bundle where
  id : Text
  name : Text
  domain : Text
  task : Text
  keywords : List Text
  expansion : Json

/-- The profile of an audience. -/
structure Profile where
  audience : Audience
  name : Text
  expansion : Json

namespace Bundle

def json (b : Bundle) : Json :=
  .object [("id", .str b.id), ("name", .str b.name), ("domain", .str b.domain),
    ("task", .str b.task), ("keywords", .texts b.keywords), ("expansion", b.expansion)]

end Bundle

namespace Profile

def id (p : Profile) : Text := p.audience.profileId

def json (p : Profile) : Json :=
  .object [("id", .str p.id), ("audience", .str p.audience.name), ("name", .str p.name),
    ("expansion", p.expansion)]

end Profile

/-- Profiles and bundles as a document declares them, in its order. -/
structure Definitions where
  profiles : List Profile
  bundles : List Bundle

/-- The profile of each audience, and the bundles in the order of registration. -/
structure Registry where
  dev : Profile
  audit : Profile
  exec : Profile
  bundles : List Bundle

namespace Registry

/-- The profile bound to an audience. -/
def profileFor (r : Registry) : Audience → Profile
  | .dev => r.dev
  | .audit => r.audit
  | .exec => r.exec

/-- The profiles in the order of the audiences. -/
def profiles (r : Registry) : List Profile := Audience.all.map r.profileFor

/-- The first profile of each audience; `none` when an audience has none. -/
def ofDefinitions? (d : Definitions) : Option Registry := do
  let dev ← d.profiles.find? fun p => p.audience == .dev
  let audit ← d.profiles.find? fun p => p.audience == .audit
  let exec ← d.profiles.find? fun p => p.audience == .exec
  return ⟨dev, audit, exec, d.bundles⟩

/-- The bundle with an id. -/
def bundle? (r : Registry) (id : Text) : Option Bundle := r.bundles.find? fun b => b.id == id

def hasBundle (r : Registry) (id : Text) : Bool := r.bundles.any fun b => b.id == id

def hasProfile (r : Registry) (id : Text) : Bool := r.profiles.any fun p => p.id == id

/-- The id names a profile or a bundle. -/
def has (r : Registry) (id : Text) : Bool := r.hasProfile id || r.hasBundle id

/-- The whole content as a document value. -/
def content (r : Registry) : Json :=
  .object [("profiles", .arr (r.profiles.map Profile.json)),
    ("bundles", .arr (r.bundles.map Bundle.json))]

/-- The identity of a document value: the digest of its canonical text. -/
def contentHash (j : Json) : Text := Sha256.hexOfText j.canonical

/-- The identity of the registry. -/
def hash (r : Registry) : Text := contentHash r.content

end Registry

end RequestCompiler
