import RequestCompiler.Issue
import RequestCompiler.Registry
import RequestCompiler.Registry.Expansion

/-!
# Validating a registry document

`Registry.validate` turns a parsed document into definitions or reports its defects, all that
one pass finds. An entry without a usable id is reported for that alone; an entry with one is
checked in all its fields. `Registry.ofDocument` is the gate to a registry: a malformed
document never becomes one.
-/

namespace RequestCompiler

/-- What can be wrong with a registry document. -/
inductive Defect
  | notMapping
  | profilesNotList
  | profileNotMapping (index : Nat)
  | profileIdMissing (index : Nat)
  | profileUnrecognized (id : Text) (index : Nat)
  | profileRepeated (id : Text) (index : Nat)
  | profileNameNotText (index : Nat)
  | profileMissing (audience : Audience)
  | bundlesNotList
  | bundleNotMapping (index : Nat)
  | bundleIdMissing (index : Nat)
  | bundleRepeated (id : Text) (index : Nat)
  | bundleFieldNotText (field : Text) (id : Text)
  | keywordsMissing (id : Text)
  | keywordBlank (index : Nat) (id : Text)
deriving DecidableEq, Repr

namespace Defect

def message : Defect → Text
  | notMapping => "Registry document must be a mapping with \"profiles\" and \"bundles\""
  | profilesNotList => "\"profiles\" must be a list"
  | profileNotMapping _ => "Profile entry must be a mapping"
  | profileIdMissing _ => "Profile id must be a non-empty string"
  | profileUnrecognized id _ =>
    "Unrecognized profile id: \"" ++ id ++ "\". Must be one of: "
      ++ Text.join ", " (Audience.all.map Audience.profileId)
  | profileRepeated id _ => "Duplicate profile id: \"" ++ id ++ "\""
  | profileNameNotText _ => "Field \"name\" must be a string"
  | profileMissing a => "Missing required profile: \"" ++ a.profileId ++ "\""
  | bundlesNotList => "\"bundles\" must be a list"
  | bundleNotMapping _ => "Bundle entry must be a mapping"
  | bundleIdMissing _ => "Bundle id must be a non-empty string"
  | bundleRepeated id _ =>
    "Duplicate bundle id: \"" ++ id ++ "\". Bundle ids must be unique across the registry"
  | bundleFieldNotText field _ => "Field \"" ++ field ++ "\" must be a string"
  | keywordsMissing _ => "Bundle must declare a non-empty match.keywords_any list"
  | keywordBlank index _ => "Keyword " ++ Text.ofNat index ++ " must be a non-empty string"

/-- An entry of `profiles`. -/
def atProfile (index : Nat) : Text := "profiles[" ++ Text.ofNat index ++ "]"

/-- An entry of `bundles`. -/
def atBundle (index : Nat) : Text := "bundles[" ++ Text.ofNat index ++ "]"

/-- A bundle by its id. -/
def inBundle (id : Text) : Text := "bundle: " ++ id

/-- The place of a defect, unless it concerns the whole document. -/
def context : Defect → Option Text
  | notMapping | profilesNotList | profileMissing _ | bundlesNotList => none
  | profileNotMapping i | profileIdMissing i | profileUnrecognized _ i | profileRepeated _ i
  | profileNameNotText i => some (atProfile i)
  | bundleNotMapping i | bundleIdMissing i | bundleRepeated _ i => some (atBundle i)
  | bundleFieldNotText _ id | keywordsMissing id | keywordBlank _ id => some (inBundle id)

def issue (d : Defect) : Issue := ⟨d.message, d.context⟩

end Defect

/-- A registry is unusable: its issues, in the order found. -/
structure ConfigurationError where
  issues : List Issue
deriving DecidableEq, Repr

namespace ConfigurationError

/-- The count of issues in front of them. -/
def header (e : ConfigurationError) : Text :=
  "Invalid bundle registry (" ++ Issue.counted e.issues.length "error" ++ "):"

def message (e : ConfigurationError) : Text :=
  e.header ++ " " ++ Text.join "; " (e.issues.map Issue.line)

end ConfigurationError

namespace Registry

/-- What the check of an entry or a list of entries found, and what it accepted. -/
structure Checked (α : Type) where
  defects : List Defect
  accepted : α

/-- A text that is not blank. -/
def solidText? : Option Json → Option Text
  | some (.str t) => if t.isBlankText then none else some t
  | _ => none

/-- An optional text field: its value, and the defect if it holds something else. -/
def optionalText (entry : Json) (field : Text) (defect : Defect) : Checked (Option Text) :=
  match entry.present? field with
  | none => ⟨[], none⟩
  | some (.str t) => ⟨[], some t⟩
  | some _ => ⟨[defect], none⟩

/-- The copy of an entry's expansion; without one it is the empty list. -/
def expansionOf (entry : Json) : Except Expansion.CopyFault Json :=
  Expansion.copy ((entry.present? "expansion").getD (.arr []))

/-- The audience whose profile an entry declares, if its id is a recognized one. -/
def declaredAudience? (entry : Json) : Option Audience :=
  if entry.isObject then (solidText? (entry.field? "id")).bind Audience.ofProfileId? else none

/-- Checks one profile entry after entries that declared the profiles of `seen`. -/
def checkProfile (seen : List Audience) (index : Nat) (entry : Json) :
    Except Expansion.CopyFault (Checked (Option Profile)) :=
  if !entry.isObject then .ok ⟨[.profileNotMapping index], none⟩
  else
    match solidText? (entry.field? "id") with
    | none => .ok ⟨[.profileIdMissing index], none⟩
    | some id =>
      match Audience.ofProfileId? id with
      | none => .ok ⟨[.profileUnrecognized id index], none⟩
      | some audience =>
        if seen.contains audience then .ok ⟨[.profileRepeated id index], none⟩
        else
          let name := optionalText entry "name" (.profileNameNotText index)
          (expansionOf entry).map fun expansion =>
            ⟨name.defects, some ⟨audience, name.accepted.getD id, expansion⟩⟩

/-- Checks profile entries from a position on. -/
def checkProfiles (seen : List Audience) (index : Nat) :
    List Json → Except Expansion.CopyFault (Checked (List Profile))
  | [] => .ok ⟨[], []⟩
  | entry :: r => do
    let first ← checkProfile seen index entry
    let rest ← checkProfiles (seen ++ (declaredAudience? entry).toList) (index + 1) r
    return ⟨first.defects ++ rest.defects, first.accepted.toList ++ rest.accepted⟩

/-- The keywords of a list entry by entry: texts that are not blank, each kept unless an
earlier one equals it in lower case. -/
def checkKeywordList (id : Text) (seen : List Text) (index : Nat) :
    List Json → Checked (List Text)
  | [] => ⟨[], []⟩
  | entry :: r =>
    match solidText? (some entry) with
    | none =>
      let rest := checkKeywordList id seen (index + 1) r
      ⟨.keywordBlank index id :: rest.defects, rest.accepted⟩
    | some keyword =>
      if seen.contains keyword.lower then checkKeywordList id seen (index + 1) r
      else
        let rest := checkKeywordList id (seen ++ [keyword.lower]) (index + 1) r
        ⟨rest.defects, keyword :: rest.accepted⟩

/-- The keywords of a bundle entry, unless one of them is unusable. -/
def checkKeywords (id : Text) (entry : Json) : Checked (Option (List Text)) :=
  match (entry.field? "match").bind fun m => m.field? "keywords_any" with
  | some (.arr (first :: rest)) =>
    let checked := checkKeywordList id [] 0 (first :: rest)
    ⟨checked.defects, if checked.defects.isEmpty then some checked.accepted else none⟩
  | _ => ⟨[.keywordsMissing id], none⟩

/-- The id that a bundle entry declares. -/
def declaredBundle? (entry : Json) : Option Text :=
  if entry.isObject then solidText? (entry.field? "id") else none

/-- Checks one bundle entry after entries that declared the ids of `seen`. -/
def checkBundle (seen : List Text) (index : Nat) (entry : Json) :
    Except Expansion.CopyFault (Checked (Option Bundle)) :=
  if !entry.isObject then .ok ⟨[.bundleNotMapping index], none⟩
  else
    match solidText? (entry.field? "id") with
    | none => .ok ⟨[.bundleIdMissing index], none⟩
    | some id =>
      if seen.contains id then .ok ⟨[.bundleRepeated id index], none⟩
      else
        let keywords := checkKeywords id entry
        let domain := optionalText entry "domain" (.bundleFieldNotText "domain" id)
        let task := optionalText entry "task" (.bundleFieldNotText "task" id)
        let name := optionalText entry "name" (.bundleFieldNotText "name" id)
        let defects := keywords.defects ++ domain.defects ++ task.defects ++ name.defects
        match keywords.accepted with
        | none => .ok ⟨defects, none⟩
        | some ks =>
          (expansionOf entry).map fun expansion =>
            ⟨defects, some ⟨id, name.accepted.getD id, domain.accepted.getD [],
              task.accepted.getD [], ks, expansion⟩⟩

/-- Checks bundle entries from a position on. -/
def checkBundles (seen : List Text) (index : Nat) :
    List Json → Except Expansion.CopyFault (Checked (List Bundle))
  | [] => .ok ⟨[], []⟩
  | entry :: r => do
    let first ← checkBundle seen index entry
    let rest ← checkBundles (seen ++ (declaredBundle? entry).toList) (index + 1) r
    return ⟨first.defects ++ rest.defects, first.accepted.toList ++ rest.accepted⟩

/-- The audiences without a declared profile. -/
def missingProfiles (entries : List Json) : List Defect :=
  let declared := entries.filterMap declaredAudience?
  (Audience.all.filter fun a => !declared.contains a).map .profileMissing

/-- The profiles of a document. -/
def validateProfiles (document : Json) : Except Expansion.CopyFault (Checked (List Profile)) :=
  match document.present? "profiles" with
  | some (.arr entries) =>
    (checkProfiles [] 0 entries).map fun c => ⟨c.defects ++ missingProfiles entries, c.accepted⟩
  | none => .ok ⟨missingProfiles [], []⟩
  | some _ => .ok ⟨[.profilesNotList], []⟩

/-- The bundles of a document. -/
def validateBundles (document : Json) : Except Expansion.CopyFault (Checked (List Bundle)) :=
  match document.present? "bundles" with
  | some (.arr entries) => checkBundles [] 0 entries
  | none => .ok ⟨[], []⟩
  | some _ => .ok ⟨[.bundlesNotList], []⟩

/-- The definitions of a document, or its defects. Only copying an expansion can fail
otherwise. -/
def validate (document : Json) :
    Except Expansion.CopyFault (Except (List Defect) Definitions) :=
  if !document.isObject then .ok (.error [.notMapping])
  else do
    let profiles ← validateProfiles document
    let bundles ← validateBundles document
    let defects := profiles.defects ++ bundles.defects
    return if defects.isEmpty then .ok ⟨profiles.accepted, bundles.accepted⟩ else .error defects

/-- Why a document is no registry. -/
inductive DocumentError
  | configuration (error : ConfigurationError)
  | copy (fault : Expansion.CopyFault)
deriving DecidableEq, Repr

/-- The error for definitions that lack a profile. -/
def incomplete : ConfigurationError :=
  ⟨[⟨"Registry must declare profile.dev.v1, profile.audit.v1 and profile.exec.v1", none⟩]⟩

/-- The registry of definitions that declare all profiles. -/
def ofDefinitions (d : Definitions) : Except ConfigurationError Registry :=
  match ofDefinitions? d with
  | some r => .ok r
  | none => .error incomplete

/-- The registry that a document declares. -/
def ofDocument (document : Json) : Except DocumentError Registry :=
  match validate document with
  | .error fault => .error (.copy fault)
  | .ok (.error defects) => .error (.configuration ⟨defects.map Defect.issue⟩)
  | .ok (.ok definitions) => (ofDefinitions definitions).mapError .configuration

end Registry

end RequestCompiler
