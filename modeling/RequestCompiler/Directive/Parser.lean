import RequestCompiler.Directive

/-!
# Parsing directives

A line is `use:` and an id, followed by delta tokens that start with a plus sign; blank lines
are skipped. The first directive names a profile and carries no delta, the later ones name
bundles. `Program.parse` answers a whole program or every error, each with its line and its
column, both counted from 1.
-/

namespace RequestCompiler

/-- Why a text is no program. -/
inductive ParseCause
  | expectedUse (text : Text)
  | badId (id : Text)
  | expectedDelta (token : Text)
  | delta (error : DeltaError)
  | empty
  | firstNotProfile (id : Text)
  | profileDeltas
  | secondProfile (id : Text)
deriving DecidableEq, Repr

namespace ParseCause

def message : ParseCause → Text
  | expectedUse text => "Expected 'use:<id>', got " ++ text.quote
  | badId id => "Invalid directive id " ++ id.quote
  | expectedDelta token => "Expected '+key=value', got " ++ token.quote
  | delta error => error.message
  | empty => "DSL is empty: expected a profile directive"
  | firstNotProfile id => "First directive must be a profile, got " ++ id.quote
  | profileDeltas => "Profile directives take no deltas"
  | secondProfile id => "Only one profile directive is allowed, got " ++ id.quote

end ParseCause

/-- A cause with the place it was found at. -/
structure ParseError where
  line : Nat
  column : Nat
  cause : ParseCause
deriving DecidableEq, Repr

namespace ParseError

def message (e : ParseError) : Text := e.cause.message

end ParseError

namespace Directive

/-- Each token of a line with the column at which it starts, where `cursor` units of the line
are already read. -/
def place (raw : Text) (cursor : Nat) : List Text → List (Text × Nat)
  | [] => []
  | token :: r =>
    let start := cursor + (Text.indexOf? token (raw.drop cursor)).getD 0
    (token, start + 1) :: place raw (start + token.length) r

/-- Reads one token behind the id. -/
def parseToken (token : Text) : Except ParseCause Delta :=
  if token.head? != some (unit '+') then .error (.expectedDelta token)
  else (Delta.parse token).mapError .delta

/-- Reads one line that is not blank: a directive, or every error of the line. -/
def parseLine (raw : Text) (line : Nat) : Except (List ParseError) Directive :=
  let indent := raw.length - (Text.trimStart raw).length
  let text := raw.trim
  if !lead.isPrefixOf text then .error [⟨line, indent + 1, .expectedUse text⟩]
  else
    let tokens := Text.words (text.drop lead.length)
    let id := tokens.headD []
    if !isName id then .error [⟨line, indent + 5, .badId id⟩]
    else
      let parsed := (place raw (indent + lead.length + id.length) tokens.tail).map fun p =>
        (parseToken p.1, p.2)
      let errors := parsed.filterMap fun p =>
        match p.1 with
        | .error cause => some ⟨line, p.2, cause⟩
        | .ok _ => none
      if errors.isEmpty then
        .ok ⟨id, parsed.filterMap (fun p => p.1.toOption), line⟩
      else .error errors

end Directive

namespace Program

/-- The lines that are not blank, each with its number. -/
def codeLines (source : Text) : List (Text × Nat) :=
  ((Text.lines source).zipIdx 1).filter fun p => !Text.isBlankText p.1

/-- The errors of a list of directives that follow each other. -/
def structureErrors : List Directive → List ParseError
  | [] => []
  | profile :: bundles =>
    (if Directive.isProfileId profile.id then []
      else [⟨profile.line, 1, .firstNotProfile profile.id⟩])
    ++ (if profile.deltas.isEmpty then [] else [⟨profile.line, 1, .profileDeltas⟩])
    ++ (bundles.filter fun b => Directive.isProfileId b.id).map fun b =>
      ⟨b.line, 1, .secondProfile b.id⟩

/-- Reads a program. The order of the directives is checked on those lines that could be
read. -/
def parse (source : Text) : Except (List ParseError) Program :=
  let parsed := (codeLines source).map fun p => Directive.parseLine p.1 p.2
  let lineErrors := parsed.flatMap fun r =>
    match r with
    | .error es => es
    | .ok _ => []
  let directives := parsed.filterMap Except.toOption
  let emptyError : List ParseError :=
    if lineErrors.isEmpty && directives.isEmpty then [⟨1, 1, .empty⟩] else []
  match lineErrors ++ emptyError ++ structureErrors directives, directives with
  | [], profile :: bundles => .ok ⟨profile, bundles⟩
  | errors, _ => .error errors

end Program

end RequestCompiler
