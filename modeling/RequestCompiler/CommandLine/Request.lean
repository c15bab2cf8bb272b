import RequestCompiler.Compile

/-!
# Requests from words and options

The command line states a request in words, and its options in texts. Every option that cannot
be read is reported, not just the first.
-/

namespace RequestCompiler.CommandLine

/-- The options of a request as they are stated. -/
structure RequestOptions where
  audience : Option Text
  mode : Option Text
  returnMode : Option Text
  deltas : List Text
deriving DecidableEq, Repr

/-- Why an option cannot be read. -/
inductive OptionError
  | audience (stated : Text)
  | mode (stated : Text)
  | returnMode (stated : Text)
  | delta (error : DeltaError)
deriving DecidableEq, Repr

namespace OptionError

def message : OptionError → Text
  | audience t => "Unknown audience: \"" ++ t ++ "\" (expected dev, audit or exec)"
  | mode t => "Unknown mode: \"" ++ t ++ "\" (expected bundle_only or allow_inline_fallback)"
  | returnMode t =>
    "Unknown return mode: \"" ++ t
      ++ "\" (expected dsl_only, dsl_plus_confidence or dsl_plus_explanation)"
  | delta e => e.message

def issue (e : OptionError) : Issue := ⟨e.message, none⟩

end OptionError

/-- A vocabulary's member that an option names; an option that is not stated has none. -/
def readMember {α : Type} (ofText? : Text → Option α) (error : Text → OptionError)
    (stated : Option Text) : List OptionError × Option α :=
  match stated with
  | none => ([], none)
  | some t =>
    match ofText? t with
    | some a => ([], some a)
    | none => ([error t], none)

/-- The deltas of some texts, and the errors of the others. -/
def readDeltas : List Text → List OptionError × List Delta
  | [] => ([], [])
  | t :: r =>
    let (errors, deltas) := readDeltas r
    match Delta.parse t with
    | .ok d => (errors, d :: deltas)
    | .error e => (.delta e :: errors, deltas)

/-- The request that words and options state. -/
def request (words : List Text) (o : RequestOptions) : Except (List OptionError) Request :=
  let audience := readMember Audience.ofText? .audience o.audience
  let mode := readMember Mode.ofText? .mode o.mode
  let returnMode := readMember ReturnMode.ofText? .returnMode o.returnMode
  let deltas := readDeltas o.deltas
  let errors := audience.1 ++ mode.1 ++ returnMode.1 ++ deltas.1
  if errors.isEmpty then
    .ok ⟨Text.join [unit ' '] words, audience.2, mode.2, returnMode.2, some deltas.2⟩
  else .error errors

end RequestCompiler.CommandLine
