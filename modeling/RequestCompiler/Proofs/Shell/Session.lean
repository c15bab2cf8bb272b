import RequestCompiler.Proofs.Holder
import RequestCompiler.Proofs.Log.Run
import RequestCompiler.Proofs.Shell.Command

/-!
# Sessions over whole runs

A session answers lines while every load, every entry of the log and the clock may come to anything
(`Input`). One line changes the settings, the registry and the codex as its command says
(`answer_eq`), so after any lines they are told by those alone (`after_eq`), and with them what the
next line is answered (`follows`).
-/

namespace RequestCompiler.Shell

/-- A line, and what the surroundings of the session come to while it is answered. -/
structure Input where
  line : Text
  registry : Except Failure Registry
  codex : Except Failure Codex
  time : Text
  recorded : LogEntry → Except Failure Unit

/-- How often a session loaded a registry and a codex. -/
structure Loads where
  registries : Nat
  codexes : Nat

/-- What a session is opened with. -/
structure Opening where
  registry : Registry
  /-- There is a codex. -/
  codex : Bool
  /-- There is a log. -/
  log : Bool
  /-- Styled text may show in any way. -/
  paint : Style.Painter

namespace Opening

/-- The services while a line is answered, which count the loads. -/
def services (o : Opening) (i : Input) : Services (StateM Loads) where
  loadRegistry := do
    modify fun l => { l with registries := l.registries + 1 }
    return i.registry
  loadCodex := if o.codex then some do
      modify fun l => { l with codexes := l.codexes + 1 }
      return i.codex
    else none
  log := if o.log then some ⟨return i.time, fun e => return i.recorded e⟩ else none

/-- The reply to a line, the session after it and the loads it took. -/
def answer (o : Opening) (s : Session) (i : Input) : (Reply × Session) × Loads :=
  (s.handle (o.services i) o.paint i.line).run ⟨0, 0⟩

/-- The session after lines. -/
def after (o : Opening) (before : List Input) : Session :=
  before.foldl (fun s i => (o.answer s i).1.2) (.start ⟨o.registry⟩)

/-- The reply to a line after others. -/
def reply (o : Opening) (before : List Input) (i : Input) : Reply :=
  (o.answer (o.after before) i).1.1

/-- The loads that a line takes after others. -/
def loads (o : Opening) (before : List Input) (i : Input) : Loads :=
  (o.answer (o.after before) i).2

/-- What compiling a request comes to while a line is answered. -/
def outcome (o : Opening) (i : Input) (r : Registry) (q : Request) : Except Failure Compilation :=
  match r.compile q with
  | .error e => .error (.invariant e)
  | .ok c =>
    if o.log then (i.recorded (.ofCompilation q.text c r.hash i.time)).map fun () => c else .ok c

end Opening

section Step

variable (o : Opening) (s : Session) (i : Input) (l : Loads)

theorem run_compileWith (r : Registry) (q : Request) :
    (r.compileWith (o.services i).log q).run l = (o.outcome i r q, l) := by
  obtain ⟨registry, codex, log, paint⟩ := o
  cases log with
  | false =>
    change ((r.compile q).mapError Failure.invariant, l) = _
    rw [Opening.outcome]
    cases r.compile q <;> rfl
  | true =>
    rw [Opening.outcome]
    cases compiled : r.compile q with
    | error e => exact Registry.run_compileWith_error compiled
    | ok c => exact Registry.run_compileWith_ok compiled rfl rfl

/-- A text is answered with what compiling it comes to. -/
theorem run_execute_compile (t : Text) :
    (s.execute (o.services i) o.paint (.compile t)).run l =
      ((match o.outcome i s.holder.current (s.preferences.request t) with
        | .ok c => compilationReply o.paint c
        | .error e => .ofFailure o.paint e.lines, s), l) := by
  have ran := run_compileWith o i l s.holder.current (s.preferences.request t)
  change (s.holder.current.compileWith (o.services i).log (s.preferences.request t) >>= _ :
    StateM Loads (Reply × Session)).run l = _
  rw [StateT.run_bind, ran]
  cases o.outcome i s.holder.current (s.preferences.request t) <;> rfl

/-- A search loads the codex if there is one and it was not loaded before. -/
theorem run_execute_codex (query : Text) :
    (s.execute (o.services i) o.paint (.codex query)).run l =
      if o.codex then
        match s.codex with
        | some c => ((searchReply o.paint query (some (.ok c)), s), l)
        | none =>
          ((searchReply o.paint query (some i.codex), { s with codex := i.codex.toOption }),
            { l with codexes := l.codexes + 1 })
      else ((searchReply o.paint query none, s), l) := by
  obtain ⟨registry, codex, log, paint⟩ := o
  obtain ⟨preferences, holder, kept⟩ := s
  cases codex with
  | false => rfl
  | true =>
    cases kept with
    | some c => rfl
    | none =>
      obtain ⟨line, registry, codex, time, recorded⟩ := i
      cases codex <;> rfl

theorem run_execute_reload :
    (s.execute (o.services i) o.paint .reload).run l =
      ((reloadReply o.paint i.registry, { s with holder := (s.holder.reload i.registry).1 }),
        { l with registries := l.registries + 1 }) := by
  obtain ⟨line, registry, codex, time, recorded⟩ := i
  cases registry <;> rfl

/-- The session after a line and the loads it took, by the line's command. -/
theorem answer_eq :
    (o.answer s i).1.2 = ⟨(Command.ofLine i.line).prefer s.preferences,
        if (Command.ofLine i.line).reloads then (s.holder.reload i.registry).1 else s.holder,
        if (Command.ofLine i.line).searches && o.codex then s.codex.or i.codex.toOption
          else s.codex⟩ ∧
      (o.answer s i).2 = ⟨if (Command.ofLine i.line).reloads then 1 else 0,
        if (Command.ofLine i.line).searches && o.codex && s.codex.isNone then 1 else 0⟩ := by
  rw [Opening.answer, Session.handle]
  cases Command.ofLine i.line with
  | compile t =>
    rw [run_execute_compile]
    exact ⟨rfl, rfl⟩
  | reload =>
    rw [run_execute_reload]
    exact ⟨rfl, rfl⟩
  | codex query =>
    rw [run_execute_codex]
    obtain ⟨registry, codex, log, paint⟩ := o
    obtain ⟨preferences, holder, kept⟩ := s
    cases codex <;> cases kept <;> exact ⟨rfl, rfl⟩
  | audience value => cases value <;> exact ⟨rfl, rfl⟩
  | mode value => cases value <;> exact ⟨rfl, rfl⟩
  | returnMode value => cases value <;> exact ⟨rfl, rfl⟩
  | _ => exact ⟨rfl, rfl⟩

theorem searchReply_ne_exit (paint : Style.Painter) (query : Text) (codex : Option (Except Failure Codex)) :
    searchReply paint query codex ≠ .exit := by
  rcases codex with - | (e | c)
  · exact nofun
  · exact nofun
  · rw [searchReply]
    split <;> exact nofun

/-- Only a command to exit ends the session. -/
theorem answer_exit_iff : (o.answer s i).1.1 = .exit ↔ (Command.ofLine i.line).exits := by
  rw [Opening.answer, Session.handle]
  cases Command.ofLine i.line with
  | compile t =>
    rw [run_execute_compile]
    cases o.outcome i s.holder.current (s.preferences.request t) <;> exact iff_of_false nofun nofun
  | reload =>
    rw [run_execute_reload]
    cases i.registry <;> exact iff_of_false nofun nofun
  | codex query =>
    rw [run_execute_codex]
    refine iff_of_false ?_ nofun
    split
    · split
      · exact searchReply_ne_exit o.paint query (some (.ok _))
      · exact searchReply_ne_exit o.paint query (some i.codex)
    · exact searchReply_ne_exit o.paint query none
  | exit => exact iff_of_true rfl rfl
  | audience value => cases value <;> exact iff_of_false nofun nofun
  | mode value => cases value <;> exact iff_of_false nofun nofun
  | returnMode value => cases value <;> exact iff_of_false nofun nofun
  | _ => exact iff_of_false nofun nofun

end Step

section History

/-- The value of a setting after lines: the one that the last valid command for it named. -/
def chosen {α : Type} (word : Text) (parse : Text → Option α) (initial : α)
    (before : List Input) : α :=
  (before.filterMap fun i => asked word parse i.line).getLastD initial

/-- The settings after lines. -/
def settings (before : List Input) : Preferences where
  audience := chosen (Text.ofString "/audience") Audience.ofText? .dev before
  mode := chosen (Text.ofString "/mode") Mode.ofText? .bundleOnly before
  returnMode := chosen (Text.ofString "/return") ReturnMode.ofText? .dslPlusConfidence before

/-- The registry of the last load that succeeded. -/
def Opening.current (o : Opening) (before : List Input) : Registry :=
  let reloaded := before.filterMap fun i =>
    if wordOf i.line = Text.ofString "/reload" then i.registry.toOption else none
  reloaded.getLastD o.registry

/-- The codex of the first search that could load one. -/
def found (before : List Input) : Option Codex :=
  before.findSome? fun i =>
    if wordOf i.line = Text.ofString "/codex" then i.codex.toOption else none

theorem found_concat (before : List Input) (i : Input) :
    found (before ++ [i]) = (found before).or
      (if wordOf i.line = Text.ofString "/codex" then i.codex.toOption else none) := by
  rw [found, List.findSome?_append, found]
  congr 1
  simp only [List.findSome?_cons, List.findSome?_nil]
  cases (if wordOf i.line = Text.ofString "/codex" then i.codex.toOption else none) <;> rfl

end History

variable (o : Opening) (before : List Input) (i : Input)

theorem after_concat : o.after (before ++ [i]) = (o.answer (o.after before) i).1.2 :=
  List.foldl_concat _ _ _ _

/-- The session after lines is what they say. -/
theorem after_eq :
    o.after before =
      ⟨settings before, ⟨o.current before⟩, if o.codex then found before else none⟩ := by
  induction before using List.reverseRecOn with
  | nil => cases codex : o.codex <;> rfl
  | append_singleton before i ih =>
    -- Each part is what the last line makes of it, and the command of the line says what that is.
    have chosen : settings (before ++ [i]) = (Command.ofLine i.line).prefer (settings before) := by
      rw [Command.prefer_ofLine]
      simp only [settings, chosen, getLastD_filterMap_concat]
    have current : (⟨o.current (before ++ [i])⟩ : Holder) =
        if (Command.ofLine i.line).reloads then (Holder.reload ⟨o.current before⟩ i.registry).1
        else ⟨o.current before⟩ := by
      rw [Command.reloads_ofLine, Opening.current, getLastD_filterMap_concat]
      by_cases reload : wordOf i.line = Text.ofString "/reload"
      · rw [if_pos reload, if_pos (decide_eq_true reload)]
        cases i.registry <;> rfl
      · rw [if_neg reload, if_neg (by simpa using reload)]
        rfl
    have kept : (if o.codex then found (before ++ [i]) else none) =
        if (Command.ofLine i.line).searches && o.codex then
          (if o.codex then found before else none).or i.codex.toOption
        else if o.codex then found before else none := by
      rw [Command.searches_ofLine, found_concat]
      by_cases search : wordOf i.line = Text.ofString "/codex" <;> cases o.codex <;> simp [search]
    rw [after_concat, (answer_eq o (o.after before) i).1, ih, chosen, current, kept]

/-- A line before has loaded the codex. -/
def Opening.Loaded (o : Opening) (before : List Input) : Prop :=
  ∃ p j s c, before = p ++ j :: s ∧ (o.loads p j).codexes = 1 ∧ j.codex = .ok c

variable {o before}

theorem registries_loads :
    (o.loads before i).registries = if wordOf i.line = Text.ofString "/reload" then 1 else 0 := by
  rw [Opening.loads, (answer_eq o (o.after before) i).2, Command.reloads_ofLine]
  simp

theorem codexes_loads :
    (o.loads before i).codexes =
      if wordOf i.line = Text.ofString "/codex" ∧ o.codex ∧ found before = none then 1 else 0 := by
  rw [Opening.loads, (answer_eq o (o.after before) i).2, after_eq, Command.searches_ofLine]
  cases o.codex <;> simp

theorem codexes_loads_eq_one_iff :
    (o.loads before i).codexes = 1 ↔
      wordOf i.line = Text.ofString "/codex" ∧ o.codex ∧ found before = none := by
  rw [codexes_loads]
  split
  · exact iff_of_true rfl ‹_›
  · exact iff_of_false Nat.zero_ne_one ‹_›

theorem found_ne_none_of_loaded (loaded : o.Loaded before) : found before ≠ none := by
  obtain ⟨p, j, s, c, rfl, once, came⟩ := loaded
  obtain ⟨search, -⟩ := (codexes_loads_eq_one_iff j).1 once
  intro none
  have all := List.findSome?_eq_none_iff.1 none j (by simp)
  rw [if_pos search, came] at all
  cases all

/-- The first search that could load a codex did so. -/
theorem loaded_of_found (given : o.codex = true) (some : found before ≠ none) :
    o.Loaded before := by
  -- Either the last line is the first that could load it, or an earlier line was.
  induction before using List.reverseRecOn with
  | nil => exact absurd rfl some
  | append_singleton before i ih =>
    by_cases none : found before = none
    · rw [found_concat, none, Option.none_or] at some
      have search : wordOf i.line = Text.ofString "/codex" := by
        by_contra other
        exact some (if_neg other)
      rw [if_pos search] at some
      cases came : i.codex with
      | error e => exact absurd (came ▸ rfl) some
      | ok c =>
        exact ⟨before, i, [], c, rfl, (codexes_loads_eq_one_iff i).2 ⟨search, given, none⟩, came⟩
    · obtain ⟨p, j, s, c, rfl, once, came⟩ := ih none
      exact ⟨p, j, s ++ [i], c, by simp, once, came⟩

/-- What a session does after lines, whatever its surroundings come to. -/
structure Follows (o : Opening) (before : List Input) : Prop where
  /-- Each setting is what the last valid command for it named. -/
  settings : (o.after before).preferences = settings before
  /-- The registry is that of the last load that succeeded. -/
  registry : (o.after before).holder.current = o.current before
  /-- A line that is neither blank nor a command is compiled with those settings against that
  registry; the reply shows the result, or what failed. -/
  compiled : ∀ i, i.line.trim ≠ [] → i.line.trim.head? ≠ some (unit '/') →
    o.reply before i =
      match o.outcome i (o.current before) ((Shell.settings before).request i.line.trim) with
      | .ok c =>
        .ofLines (o.paint (stateStyle c.state) ("[" ++ c.state.name ++ "]") ::
          Text.splitAt (unit '\n') c.report)
      | .error e => .ofFailure o.paint e.lines
  /-- Only a command to reload loads a registry, and once. -/
  reloads : ∀ i,
    (o.loads before i).registries = if wordOf i.line = Text.ofString "/reload" then 1 else 0
  /-- What a reload comes to is shown. -/
  reloaded : ∀ i, wordOf i.line = Text.ofString "/reload" →
    o.reply before i = reloadReply o.paint i.registry
  /-- A search is answered from the codex that was found before, or from what its own load comes
  to. -/
  searched : ∀ i, wordOf i.line = Text.ofString "/codex" →
    o.reply before i = searchReply o.paint (argumentOf i.line)
      (if o.codex then some (((found before).map .ok).getD i.codex) else none)
  /-- The codex, if there is one, is loaded once by a search before which no load of it succeeded,
  and by no other line. -/
  loaded : o.codex = true → ∀ i, (o.loads before i).codexes ≤ 1 ∧
    ((o.loads before i).codexes = 1 ↔ wordOf i.line = Text.ofString "/codex" ∧ ¬o.Loaded before)
  /-- Only a command to exit is answered with the end of the session. -/
  exits : ∀ i, o.reply before i = .exit ↔
    wordOf i.line = Text.ofString "/exit" ∨ wordOf i.line = Text.ofString "/quit"

/-- A session does what its lines say, and answers every line, whatever fails. -/
theorem follows (o : Opening) (before : List Input) : Follows o before where
  settings := by rw [after_eq]
  registry := by rw [after_eq]
  compiled i solid plain := by
    rw [Opening.reply, Opening.answer, Session.handle, Command.ofLine_of_plain solid plain,
      run_execute_compile, after_eq]
    rfl
  reloads := registries_loads
  reloaded i word := by
    rw [Opening.reply, Opening.answer, Session.handle, Command.ofLine_of_word word, word]
    exact congrArg (fun a => a.1.1) (run_execute_reload o _ i _)
  searched i word := by
    have command : Command.ofLine i.line = .codex (argumentOf i.line) := by
      rw [Command.ofLine_of_word word, word]
      rfl
    rw [Opening.reply, Opening.answer, Session.handle, command, run_execute_codex, after_eq]
    cases o.codex <;> cases found before <;> rfl
  loaded given i := by
    have fresh : found before = none ↔ ¬o.Loaded before :=
      ⟨fun none loaded => found_ne_none_of_loaded loaded none,
        fun unloaded => by_contra fun some => unloaded (loaded_of_found given some)⟩
    rw [codexes_loads_eq_one_iff, ← fresh]
    refine ⟨?_, fun all => ⟨all.1, all.2.2⟩, fun all => ⟨all.1, given, all.2⟩⟩
    rw [codexes_loads]
    split <;> decide
  exits i := by
    rw [Opening.reply, answer_exit_iff, Command.exits_ofLine, decide_eq_true_iff]

end RequestCompiler.Shell
