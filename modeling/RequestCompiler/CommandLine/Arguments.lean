import RequestCompiler.Text

/-!
# Arguments of the command line

The arguments name a command, perhaps in a group, then its operands and options in any order. An
option is stated as `--name value` or `--name=value`, and `--` ends the options. A group reads the
arguments before its command does; what looks like an option and is none of the group's goes to the
command, with everything after it that is not an operand yet.
-/

namespace RequestCompiler.CommandLine

/-- The commands that can be run. -/
inductive CommandName
  | compile
  | bundlesList
  | bundlesShow
  | registryValidate
  | check
  | codexModules
  | codexModule
  | codexGet
  | codexSearch
  | codexTag
  | codexType
  | codexStats
  | log
deriving DecidableEq, Repr

/-- An option of a command; `value` is what stands for its value in messages. -/
structure OptionSpec where
  name : Text
  value : Option Text
deriving DecidableEq, Repr

namespace OptionSpec

/-- The option with its value, as in messages. -/
def usage (o : OptionSpec) : Text :=
  match o.value with
  | some v => o.name ++ " " ++ v
  | none => o.name

end OptionSpec

/-- A command: the names of the operands it needs, and its options. -/
structure CommandSpec where
  command : CommandName
  operands : List Text
  options : List OptionSpec
deriving DecidableEq, Repr

/-- A word of the command line: a command, or a group of commands. -/
inductive Entry
  | command (spec : CommandSpec)
  | group (commands : List (Text × CommandSpec))

/-- A command with what it was given. Options are in the order of their statement. -/
structure Invocation where
  command : CommandName
  operands : List Text
  options : List (Text × Text)
deriving DecidableEq, Repr

namespace Invocation

/-- An option is stated. -/
def has (i : Invocation) (name : Text) : Bool := i.options.any fun p => p.1 == name

/-- The values of an option. -/
def values (i : Invocation) (name : Text) : List Text :=
  (i.options.filter fun p => p.1 == name).map (·.2)

/-- The value of an option; the last statement counts. -/
def value? (i : Invocation) (name : Text) : Option Text := (i.values name).getLast?

/-- The operand at a position; the empty text if it is not there. -/
def operand (i : Invocation) (n : Nat) : Text := i.operands.getD n []

end Invocation

/-- Why no command can be run. -/
inductive UsageError
  | unknownCommand (name : Text)
  | unknownOption (argument : Text)
  | missingOperand (name : Text)
  | missingValue (option : OptionSpec)
deriving DecidableEq, Repr

namespace UsageError

def message : UsageError → Text
  | unknownCommand name => "error: unknown command '" ++ name ++ "'"
  | unknownOption argument => "error: unknown option '" ++ argument ++ "'"
  | missingOperand name => "error: missing required argument '" ++ name ++ "'"
  | missingValue option => "error: option '" ++ option.usage ++ "' argument missing"

end UsageError

/-- What the arguments ask for. -/
inductive Demand
  | run (invocation : Invocation)
  | version
  /-- Help, either asked for or in place of a command. -/
  | help (asked : Bool)
  | refuse (error : UsageError)
deriving DecidableEq, Repr

/-! ## Reading arguments -/

/-- Arguments sorted into operands, what may be options of a command, and stated options. -/
structure Sorted where
  operands : List Text
  unknown : List Text
  options : List (Text × Text)
deriving DecidableEq, Repr

def hyphen : UInt16 := unit '-'

/-- The argument that ends the options. -/
def endOfOptions : Text := "--"

/-- An argument that looks like an option. -/
def isOptionLike (t : Text) : Bool := 1 < t.length && t.head? == some hyphen

/-- The name and the value of an argument `--name=value`. -/
def splitAssignment (t : Text) : Option (Text × Text) :=
  let name := t.takeWhile (· != unit '=')
  if name.length < t.length then some (name, t.drop (name.length + 1)) else none

/-- What an argument says on its own: nothing about options, a flag, an option that needs the
next argument, or an option with its value. -/
inductive Reading
  | other
  | flag (option : OptionSpec)
  | needsValue (option : OptionSpec)
  | valued (option : OptionSpec) (value : Text)

/-- Reads one argument. -/
def readArgument (options : List OptionSpec) (t : Text) : Reading :=
  match options.find? fun o => o.name == t with
  | some o => if o.value.isSome then .needsValue o else .flag o
  | none =>
    match splitAssignment t with
    | none => .other
    | some (name, value) =>
      match options.find? fun o => o.name == name && o.value.isSome with
      | some o => .valued o value
      | none => .other

/-- Sorts arguments. Once something unknown has come, operands are passed on with it. -/
def sort (options : List OptionSpec) (passOn : Bool) : List Text → Except UsageError Sorted
  | [] => .ok ⟨[], [], []⟩
  | t :: r =>
    if t = endOfOptions then .ok (if passOn then ⟨[], t :: r, []⟩ else ⟨r, [], []⟩)
    else
      match readArgument options t with
      | .flag o => do
        let s ← sort options passOn r
        return { s with options := (o.name, []) :: s.options }
      | .valued o v => do
        let s ← sort options passOn r
        return { s with options := (o.name, v) :: s.options }
      | .needsValue o =>
        match r with
        | [] => .error (.missingValue o)
        | v :: r' => do
          let s ← sort options passOn r'
          return { s with options := (o.name, v) :: s.options }
      | .other =>
        if passOn || isOptionLike t then do
          let s ← sort options true r
          return { s with unknown := t :: s.unknown }
        else do
          let s ← sort options false r
          return { s with operands := t :: s.operands }

/-- The version is asked for in front of the end of options. -/
def asksVersion (arguments : List Text) : Bool :=
  (arguments.takeWhile (· != endOfOptions)).any fun t =>
    t == Text.ofString "--version" || (Text.ofString "-V").isPrefixOf t

/-- Help is asked for. -/
def asksHelp (arguments : List Text) : Bool :=
  arguments.any fun t => t == Text.ofString "-h" || t == Text.ofString "--help"

/-- What a command's arguments ask for. -/
def demandOf (spec : CommandSpec) (operands unknown : List Text) : Demand :=
  match sort spec.options false unknown with
  | .error e => .refuse e
  | .ok s =>
    let operands := operands ++ s.operands
    if asksHelp s.unknown then .help true
    else
      match s.unknown, spec.operands[operands.length]? with
      | t :: _, _ => .refuse (.unknownOption t)
      | [], some name => .refuse (.missingOperand name)
      | [], none => .run ⟨spec.command, operands, s.options⟩

/-- What arguments ask for where a word of `names` is expected, which `next` follows up. -/
def demandAmong {α : Type} (names : List (Text × α))
    (next : α → List Text → List Text → Demand) (operands unknown : List Text) : Demand :=
  match operands with
  | [] =>
    match unknown with
    | [] => .help false
    | t :: _ => if asksHelp unknown then .help true else .refuse (.unknownOption t)
  | name :: rest =>
    match names.find? fun p => p.1 == name with
    | some (_, found) => next found rest unknown
    | none =>
      if name = Text.ofString "help" ∨ asksHelp unknown then .help true
      else .refuse (.unknownCommand name)

/-- What arguments ask for where a word of `names` is expected behind a group's name. -/
def demandInGroup (commands : List (Text × CommandSpec)) (operands unknown : List Text) :
    Demand :=
  match sort [] false unknown with
  | .error e => .refuse e
  | .ok s => demandAmong commands demandOf (operands ++ s.operands) s.unknown

/-- What arguments ask for. -/
def demand (program : List (Text × Entry)) (arguments : List Text) : Demand :=
  if asksVersion arguments then .version
  else
    match sort [] false arguments with
    | .error e => .refuse e
    | .ok s =>
      demandAmong program
        (fun entry operands unknown =>
          match entry with
          | .command spec => demandOf spec operands unknown
          | .group commands => demandInGroup commands operands unknown)
        s.operands s.unknown

/-! ## The program -/

def jsonOption : OptionSpec := ⟨"--json", none⟩

def registryOption : OptionSpec := ⟨"--registry", some "<path>"⟩

def codexOption : OptionSpec := ⟨"--codex", some "<path>"⟩

def homeOption : OptionSpec := ⟨"--home", some "<path>"⟩

def audienceOption : OptionSpec := ⟨"--audience", some "<audience>"⟩

def modeOption : OptionSpec := ⟨"--mode", some "<mode>"⟩

def returnModeOption : OptionSpec := ⟨"--return-mode", some "<mode>"⟩

def deltaOption : OptionSpec := ⟨"--delta", some "<key=value>"⟩

def maxOption : OptionSpec := ⟨"--max", some "<n>"⟩

def limitOption : OptionSpec := ⟨"--limit", some "<n>"⟩

/-- The commands on the codex. -/
def codexCommands : List (Text × CommandSpec) := [
  ("modules", ⟨.codexModules, [], [jsonOption]⟩),
  ("module", ⟨.codexModule, ["module"], [jsonOption, codexOption]⟩),
  ("get", ⟨.codexGet, ["id"], [jsonOption, codexOption]⟩),
  ("search", ⟨.codexSearch, ["query"], [jsonOption, codexOption, maxOption]⟩),
  ("tag", ⟨.codexTag, ["tag"], [jsonOption, codexOption]⟩),
  ("type", ⟨.codexType, ["type"], [jsonOption, codexOption]⟩),
  ("stats", ⟨.codexStats, [], [jsonOption, codexOption]⟩)]

/-- All commands and groups. -/
def program : List (Text × Entry) := [
  ("compile", .command ⟨.compile, ["text"],
    [audienceOption, modeOption, returnModeOption, deltaOption, jsonOption, registryOption,
      homeOption]⟩),
  ("bundles", .group [
    ("list", ⟨.bundlesList, [], [jsonOption, registryOption]⟩),
    ("show", ⟨.bundlesShow, ["id"], [jsonOption, registryOption]⟩)]),
  ("registry", .group [("validate", ⟨.registryValidate, [], [registryOption]⟩)]),
  ("check", .command ⟨.check, ["dsl-file"], [registryOption]⟩),
  ("codex", .group codexCommands),
  ("log", .command ⟨.log, [], [limitOption, jsonOption, homeOption]⟩)]

end RequestCompiler.CommandLine
