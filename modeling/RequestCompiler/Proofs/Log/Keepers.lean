import Mathlib.Logic.Function.Basic
import RequestCompiler.Proofs.Log.File
import RequestCompiler.Proofs.Log.Memory

/-!
# Logs in files and logs in memory

`LogKeepers` are the logs of a home directory and logs in memory, as many as one likes, and a `LogCall` asks
one of them for an append or for the raw text of a log. A keeper answers by the calls that went to it: what
was appended under a name, line by line, is read under that name (`replies_by_history`). So files and memory
answer alike, and neither another log nor another keeper matters. The files take this only of names that a
file can have and of a home that can be made (`not_always_alike`).
-/

namespace RequestCompiler

/-- What a keeper of logs is asked for. -/
inductive LogCall
  | append (name line : Text)
  | read (name : Text)
deriving DecidableEq

/-- What a keeper of logs answers. -/
inductive LogReply
  | appended
  | raw (text : Text)
deriving DecidableEq

namespace LogCall

/-- A name that a file can have: one segment of a path, without a NUL, that is encoded as it is. -/
structure IsFileName (name : Text) : Prop extends Path.IsName name where
  wellFormed : name.wellFormed = true
  usable : Path.nul ∉ name

/-- A file can have the name of the log, and a line that is appended has no lone surrogate. -/
def Plain : LogCall → Prop
  | append name line => IsFileName name ∧ line.wellFormed = true
  | read name => IsFileName name

/-- What a call adds to a log. -/
def added (name : Text) : LogCall → Text
  | append n line => if n = name then line ++ [unit '\n'] else []
  | read _ => []

/-- The lines that calls append to a log, each with a line end. -/
def textOf (name : Text) (calls : List LogCall) : Text := calls.flatMap (added name)

/-- The answer to a call after others. -/
def reply (before : List LogCall) : LogCall → LogReply
  | append _ _ => .appended
  | read name => .raw (textOf name before)

theorem textOf_concat (name : Text) (calls : List LogCall) (c : LogCall) :
    textOf name (calls ++ [c]) = textOf name calls ++ c.added name := by
  rw [textOf, List.flatMap_append, List.flatMap_singleton, textOf]

theorem textOf_append_other {name n : Text} (ne : n ≠ name) (calls : List LogCall) (line : Text) :
    textOf name (calls ++ [append n line]) = textOf name calls := by
  rw [textOf_concat, added, if_neg ne, List.append_nil]

end LogCall

namespace MemoryLog

variable {l : MemoryLog} {before : List LogCall}

/-- The answer to a call, and the logs after it. -/
def answer (l : MemoryLog) : LogCall → LogReply × MemoryLog
  | .append name line => (.appended, l.append name line)
  | .read name => (.raw (l.readRaw name), l)

/-- Every log is what calls appended to it. -/
def Holds (l : MemoryLog) (calls : List LogCall) : Prop := ∀ n, l.readRaw n = LogCall.textOf n calls

theorem holds_empty : empty.Holds [] := readRaw_empty

theorem Holds.answer (holds : l.Holds before) (c : LogCall) :
    (l.answer c).1 = c.reply before ∧ (l.answer c).2.Holds (before ++ [c]) := by
  cases c with
  | append name line =>
    refine ⟨rfl, fun n => ?_⟩
    rw [LogCall.textOf_concat, ← holds n, LogCall.added]
    by_cases same : name = n
    · rw [if_pos same, ← same]
      exact readRaw_append l name line
    · rw [if_neg same, List.append_nil]
      exact readRaw_append_other l line (Ne.symm same)
  | read name =>
    refine ⟨congrArg LogReply.raw (holds name), fun n => ?_⟩
    rw [LogCall.textOf_concat, LogCall.added, List.append_nil]
    exact holds n

end MemoryLog

namespace LogFile

variable {w : World} {home : Text} {before : List LogCall}

/-- The answer to a call, and the world after it. -/
def answer (home : Text) (w : World) : LogCall → Except FileFault LogReply × World
  | .append name line =>
    let (outcome, w') := (append home name line : StateM World (Except FileFault Unit)).run w
    (outcome.map fun () => .appended, w')
  | .read name =>
    let (outcome, w') := (readRaw home name : StateM World (Except FileFault Text)).run w
    (outcome.map .raw, w')

/-- The place of a home. -/
def homePlace (w : World) (home : Text) : List Text :=
  w.place (Path.isAbsolute home) ((Path.segments (Path.isAbsolute home) home).map Text.scrub)

/-- Nothing stands at the place of the home, no file is in the way of making it, and its path has no
NUL. -/
structure Absent (w : World) (home : Text) : Prop where
  free : w.files.node? (homePlace w home) = none
  unblocked : w.files.Unblocked (homePlace w home)
  usable : Path.nul ∉ directoryOf home

/-- Every log is what calls appended to it, and nothing is in the way of its directory. -/
structure Holds (w : World) (home : Text) (calls : List LogCall) : Prop where
  sound : w.Sound
  unblocked : w.files.Unblocked (folder w home)
  usable : Path.nul ∉ directoryOf home
  logs : ∀ n, LogCall.IsFileName n → w.files.HoldsText (placeOf w home n) (LogCall.textOf n calls)

theorem folder_eq (w : World) (home : Text) :
    folder w home = homePlace w home ++ [Text.ofString "logs"] := by
  have own : Text.scrub (Text.ofString "logs") = Text.ofString "logs" := Text.scrub_eq_self (by decide)
  rw [folder, encodedSegments, segmentsOf, List.map_append, List.map_singleton, own,
    World.place_append_name isName_logs, homePlace]

/-- Different names of files have different places. -/
theorem placeOf_ne {m n : Text} (name : LogCall.IsFileName m) (name' : LogCall.IsFileName n) (ne : m ≠ n) :
    placeOf w home m ≠ placeOf w home n := by
  rw [placeOf, placeOf, Text.scrub_eq_self name.wellFormed, Text.scrub_eq_self name'.wellFormed]
  simpa using ne

theorem Absent.holds (absent : Absent w home) (sound : w.Sound) : Holds w home [] where
  sound := sound
  usable := absent.usable
  unblocked := by
    intro q c lead
    rw [folder_eq] at lead
    rcases List.prefix_concat_iff.1 lead with rfl | above
    · rw [sound.grounded.free_below absent.free (List.cons_ne_nil _ _)]
      exact nofun
    · exact absent.unblocked q c above
  logs n _ := by
    right
    rw [placeOf, folder_eq, List.append_assoc]
    exact ⟨sound.grounded.free_below absent.free (List.cons_ne_nil _ _), rfl⟩

/-- An append of a text without lone surrogates succeeds, and adds its line to its log and nothing to the
others. -/
theorem Holds.append {n line : Text} (holds : Holds w home before) (name : LogCall.IsFileName n)
    (whole : line.wellFormed = true) :
    ∃ w', (append home n line : StateM World (Except FileFault Unit)).run w = (.ok (), w') ∧
      Holds w' home (before ++ [.append n line]) := by
  obtain ⟨t, made⟩ : ∃ t, w.files.makeBelow [] (folder w home) = .ok t :=
    FileTree.exists_makeBelow holds.unblocked
  have own := holds.logs n name
  have usable : Path.nul ∉ pathOf home n := usable_pathOf_iff.2 ⟨holds.usable, name.usable⟩
  obtain ⟨done, sound⟩ := append_of_made line holds.sound name.toIsName usable own made
  have scrubbed : (line ++ [unit '\n']).scrub = line ++ [unit '\n'] :=
    Text.scrub_eq_self ((Text.wellFormed_append whole _).trans rfl)
  rw [scrubbed] at done sound
  refine ⟨_, done, sound, ?_, holds.usable, fun m name' => ?_⟩
  · refine (holds.unblocked.makeBelow made).put (by simp [placeOf]) (.inl fun lead => ?_)
    have longer := lead.length_le
    rw [placeOf, List.length_append, List.length_singleton] at longer
    exact absurd longer (Nat.not_succ_le_self _)
  · change FileTree.HoldsText _ (placeOf w home m) _
    rw [LogCall.textOf_concat, LogCall.added, FileTree.HoldsText, FileTree.node?_put (by simp [placeOf])]
    by_cases same : n = m
    · subst same
      rw [if_pos rfl, if_pos rfl]
      exact .inl rfl
    · have kept := FileTree.node?_makeBelow made m.scrub
      rw [List.nil_append] at kept
      rw [if_neg (placeOf_ne name' name (Ne.symm same)), if_neg same, List.append_nil, placeOf, kept]
      exact holds.logs m name'

theorem Holds.answer (holds : Holds w home before) {c : LogCall} (plain : c.Plain) :
    ∃ w', answer home w c = (.ok (c.reply before), w') ∧ Holds w' home (before ++ [c]) := by
  cases c with
  | append n line =>
    obtain ⟨w', done, holds'⟩ := holds.append plain.1 plain.2
    refine ⟨w', ?_, holds'⟩
    rw [LogFile.answer, done]
    rfl
  | read n =>
    have usable : Path.nul ∉ pathOf home n := usable_pathOf_iff.2 ⟨holds.usable, plain.usable⟩
    have held :=
      content_of_holdsText holds.sound plain.toIsName usable holds.unblocked (holds.logs n plain)
    refine ⟨w, ?_, holds.sound, holds.unblocked, holds.usable, fun m name => ?_⟩
    · rw [LogFile.answer, run_readRaw_eq_content plain.toIsName, held]
      rfl
    · rw [LogCall.textOf_concat, LogCall.added, List.append_nil]
      exact holds.logs m name

end LogFile

/-- Who is asked: the files, or one of the logs in memory. -/
inductive LogKeeper
  | files
  | memory (number : Nat)
deriving DecidableEq

/-- The world with the files, and the logs in memory. -/
structure LogKeepers where
  world : World
  memories : Nat → MemoryLog

namespace LogKeepers

/-- The answer to a call, and all keepers after it. -/
def answer (home : Text) (s : LogKeepers) : LogKeeper × LogCall → Except FileFault LogReply × LogKeepers
  | (.files, c) =>
    let (reply, w) := LogFile.answer home s.world c
    (reply, { s with world := w })
  | (.memory i, c) =>
    let (reply, l) := (s.memories i).answer c
    (.ok reply, { s with memories := Function.update s.memories i l })

/-- A call to the files is plain; logs in memory may have any name and any line. -/
def Plain (c : LogKeeper × LogCall) : Prop := c.1 = .files → c.2.Plain

/-- All keepers after calls. -/
def after (home : Text) (s : LogKeepers) (calls : List (LogKeeper × LogCall)) : LogKeepers :=
  calls.foldl (fun s c => (s.answer home c).2) s

/-- What is answered in a world after calls, from logs in memory that were empty. -/
def reply (home : Text) (w : World) (before : List (LogKeeper × LogCall)) (c : LogKeeper × LogCall) :
    Except FileFault LogReply :=
  ((after home ⟨w, fun _ => .empty⟩ before).answer home c).1

/-- The calls that went to a keeper. -/
def callsTo (k : LogKeeper) (calls : List (LogKeeper × LogCall)) : List LogCall :=
  calls.filterMap fun c => if c.1 = k then some c.2 else none

section Calls

variable {k k' : LogKeeper} {before : List (LogKeeper × LogCall)}

theorem callsTo_concat_self (k : LogKeeper) (before : List (LogKeeper × LogCall)) (c : LogCall) :
    callsTo k (before ++ [(k, c)]) = callsTo k before ++ [c] := by
  simp [callsTo]

theorem callsTo_concat_other (ne : k' ≠ k) (before : List (LogKeeper × LogCall)) (c : LogCall) :
    callsTo k (before ++ [(k', c)]) = callsTo k before := by
  simp [callsTo, ne]

/-- An append to another log adds nothing to what the calls to a keeper say of a log. -/
theorem textOf_callsTo_concat {m n : Text} (other : (k', m) ≠ (k, n))
    (before : List (LogKeeper × LogCall)) (line : Text) :
    LogCall.textOf n (callsTo k (before ++ [(k', .append m line)])) =
      LogCall.textOf n (callsTo k before) := by
  by_cases same : k' = k
  · subst same
    rw [callsTo_concat_self, LogCall.textOf_append_other]
    rintro rfl
    exact other rfl
  · rw [callsTo_concat_other same]

theorem callsTo_map (k : LogKeeper) (calls : List LogCall) : callsTo k (calls.map fun c => (k, c)) = calls := by
  simp [callsTo, List.filterMap_map]

end Calls

/-- Every keeper holds what the calls to it say. -/
structure Hold (home : Text) (s : LogKeepers) (calls : List (LogKeeper × LogCall)) : Prop where
  files : LogFile.Holds s.world home (callsTo .files calls)
  memory : ∀ i, (s.memories i).Holds (callsTo (.memory i) calls)

variable {home : Text} {s : LogKeepers} {w : World} {before : List (LogKeeper × LogCall)}

/-- A call is answered by the calls to the same keeper, and keeps all keepers so. -/
theorem Hold.answer (hold : Hold home s before) {c : LogKeeper × LogCall} (plain : Plain c) :
    (s.answer home c).1 = .ok (c.2.reply (callsTo c.1 before)) ∧
      Hold home (s.answer home c).2 (before ++ [c]) := by
  obtain ⟨k, c⟩ := c
  cases k with
  | files =>
    obtain ⟨w', answered, holds⟩ := hold.files.answer (plain rfl)
    rw [LogKeepers.answer, answered]
    refine ⟨rfl, ?_, fun i => ?_⟩
    · rw [callsTo_concat_self]
      exact holds
    · have apart : LogKeeper.files ≠ .memory i := nofun
      rw [callsTo_concat_other apart]
      exact hold.memory i
  | memory i =>
    obtain ⟨answered, holds⟩ := (hold.memory i).answer c
    refine ⟨congrArg Except.ok answered, ?_, fun j => ?_⟩
    · have apart : LogKeeper.memory i ≠ .files := nofun
      rw [callsTo_concat_other apart]
      exact hold.files
    · change (Function.update s.memories i _ j).Holds _
      by_cases same : j = i
      · subst same
        rw [Function.update_self, callsTo_concat_self]
        exact holds
      · have apart : LogKeeper.memory i ≠ .memory j := fun equal => same (LogKeeper.memory.inj equal).symm
        rw [Function.update_of_ne same, callsTo_concat_other apart]
        exact hold.memory j

section Runs

variable (sound : w.Sound) (absent : LogFile.Absent w home)
include sound absent

theorem hold_after (plain : ∀ c ∈ before, Plain c) :
    Hold home (after home ⟨w, fun _ => .empty⟩ before) before := by
  induction before using List.reverseRecOn with
  | nil => exact ⟨absent.holds sound, fun _ => MemoryLog.holds_empty⟩
  | append_singleton before c ih =>
    rw [List.forall_mem_append] at plain
    rw [after, List.foldl_append]
    exact ((ih plain.1).answer (plain.2 c List.mem_cons_self)).2

/-- Where the home was absent and the logs in memory were empty, a keeper answers by the calls that went to
it: a read comes to the lines that were appended to the log so far, each with a line end. So the files
answer as every log in memory does, and an append to another log, or to any log of another keeper, changes
no answer. -/
theorem replies_by_history (plain : ∀ c ∈ before, Plain c) (k : LogKeeper) :
    (∀ c, Plain (k, c) → reply home w before (k, c) = .ok (c.reply (callsTo k before))) ∧
      (∀ (calls : List LogCall) (c : LogCall) (i : Nat), (∀ c' ∈ calls, c'.Plain) → c.Plain →
        reply home w (calls.map fun c' => (.files, c')) (.files, c) =
          reply home w (calls.map fun c' => (.memory i, c')) (.memory i, c)) ∧
      ∀ n k' m line, Plain (k, .read n) → Plain (k', .append m line) → (k', m) ≠ (k, n) →
        reply home w (before ++ [(k', .append m line)]) (k, .read n) =
          reply home w before (k, .read n) := by
  have answered : ∀ before k c, (∀ c ∈ before, Plain c) → Plain (k, c) →
      reply home w before (k, c) = .ok (c.reply (callsTo k before)) := by
    intro before k c plain own
    have hold := hold_after sound absent plain
    exact (hold.answer own).1
  refine ⟨fun c own => answered before k c plain own, ?_, ?_⟩
  · intro calls c i each own
    have alike : ∀ k, reply home w (calls.map fun c' => (k, c')) (k, c) = .ok (c.reply calls) := by
      intro k
      have each' : ∀ c' ∈ calls.map fun c' => (k, c'), Plain c' := by
        rw [List.forall_mem_map]
        exact fun c' member _ => each c' member
      rw [answered _ k c each' fun _ => own, callsTo_map]
    rw [alike, alike]
  · intro n k' m line own own' other
    have plain' : ∀ c ∈ before ++ [(k', .append m line)], Plain c :=
      List.forall_mem_append.2 ⟨plain, List.forall_mem_singleton.2 own'⟩
    rw [answered _ k (.read n) plain' own, answered _ k (.read n) plain own, LogCall.reply,
      textOf_callsTo_concat other before line, LogCall.reply]

end Runs

/-- A world from which a home with a log was removed. -/
def clearedWorld : World :=
  { LogFile.logWorld "old\n" with files := (LogFile.logWorld "old\n").files.remove "/logs" }

theorem sound_clearedWorld : clearedWorld.Sound where
  grounded := (LogFile.sound_logWorld "old\n").grounded.remove "/logs"
  absolute := rfl
  opened := rfl

theorem absent_clearedWorld : LogFile.Absent clearedWorld "logs" where
  free := by decide
  unblocked := sound_clearedWorld.grounded.unblocked (p := []) rfl (by decide)
  usable := by decide

/-- Appends to two logs of the files and to some in memory; lines may be empty or hold line ends, and a name
in memory may be empty. -/
def mixedLogCalls : List (LogKeeper × LogCall) := [
  (.files, .append compileLogName "one"), (.memory 0, .append compileLogName "two"),
  (.files, .read "other.jsonl"), (.files, .append "other.jsonl" "three"), (.memory 0, .append [] "six"),
  (.files, .append compileLogName []), (.files, .append compileLogName "four\nfive")]

theorem isFileName_compileLogName : LogCall.IsFileName compileLogName where
  toIsName := LogFile.isName_compileLogName
  wellFormed := by decide
  usable := by decide

theorem plain_mixedLogCalls : ∀ c ∈ mixedLogCalls, Plain c := by
  have other : LogCall.IsFileName (Text.ofString "other.jsonl") :=
    ⟨⟨by decide, by decide, by decide, by decide⟩, by decide, by decide⟩
  have own := isFileName_compileLogName
  simp only [mixedLogCalls, List.forall_mem_cons]
  exact ⟨fun _ => ⟨own, by decide⟩, nofun, fun _ => other, fun _ => ⟨other, by decide⟩, nofun,
    fun _ => ⟨own, by decide⟩, fun _ => ⟨own, by decide⟩, nofun⟩

theorem replies_by_history_mixed :
    reply "logs" clearedWorld mixedLogCalls (.files, .read compileLogName) =
        .ok (.raw "one\n\nfour\nfive\n") ∧
      reply "logs" clearedWorld mixedLogCalls (.memory 0, .read compileLogName) = .ok (.raw "two\n") ∧
      reply "logs" clearedWorld mixedLogCalls (.memory 0, .read []) = .ok (.raw "six\n") ∧
      reply "logs" clearedWorld mixedLogCalls (.memory 1, .read compileLogName) = .ok (.raw []) := by
  have replies := fun k =>
    (replies_by_history sound_clearedWorld absent_clearedWorld plain_mixedLogCalls k).1
  exact ⟨replies .files _ fun _ => isFileName_compileLogName, replies (.memory 0) _ nofun,
    replies (.memory 0) _ nofun, replies (.memory 1) _ nofun⟩

/-- The files and a log in memory answer a call alike after the same calls. -/
def Alike (home : Text) (w : World) (calls : List LogCall) (c : LogCall) : Prop :=
  reply home w (calls.map fun c' => (.files, c')) (.files, c) =
    reply home w (calls.map fun c' => (.memory 0, c')) (.memory 0, c)

instance (home : Text) (w : World) (calls : List LogCall) (c : LogCall) :
    Decidable (Alike home w calls c) := inferInstanceAs (Decidable (_ = _))

/-- They do not with a file in the way of the home, with a NUL in its path or in the name of a log, or with
two names of one encodable form. -/
theorem not_always_alike :
    ((LogFile.logWorld "one\n").Sound ∧
        (LogFile.logWorld "one\n").files.node?
          (LogFile.homePlace (LogFile.logWorld "one\n") "logs/compile.jsonl/home") = none ∧
        ¬Alike "logs/compile.jsonl/home" (LogFile.logWorld "one\n") [] (.read compileLogName)) ∧
      (clearedWorld.Sound ∧ clearedWorld.files.node? (LogFile.homePlace clearedWorld [Path.nul]) = none ∧
        ¬Alike [Path.nul] clearedWorld [] (.read compileLogName)) ∧
      (LogFile.Absent clearedWorld "logs" ∧ Path.IsName [Path.nul] ∧
        ¬Alike "logs" clearedWorld [] (.read [Path.nul])) ∧
      (LogFile.Absent clearedWorld "logs" ∧ Path.IsName [0xD800] ∧ Path.IsName [0xDC00] ∧
        ¬Alike "logs" clearedWorld [.append [0xD800] "one"] (.read [0xDC00])) := by
  have blocked : ¬Alike "logs/compile.jsonl/home" (LogFile.logWorld "one\n") [] (.read compileLogName) := by
    decide
  have refusedHome : ¬Alike [Path.nul] clearedWorld [] (.read compileLogName) := by decide
  have refusedName : ¬Alike "logs" clearedWorld [] (.read [Path.nul]) := by decide
  have merged : ¬Alike "logs" clearedWorld [.append [0xD800] "one"] (.read [0xDC00]) := by decide
  refine ⟨⟨LogFile.sound_logWorld _, by decide, blocked⟩, ⟨sound_clearedWorld, by decide, refusedHome⟩,
    ⟨absent_clearedWorld, ?_, refusedName⟩, ⟨absent_clearedWorld, ?_, ?_, merged⟩⟩
  · exact ⟨by decide, by decide, by decide, by decide⟩
  · exact ⟨by decide, by decide, by decide, by decide⟩
  · exact ⟨by decide, by decide, by decide, by decide⟩

end LogKeepers

end RequestCompiler
