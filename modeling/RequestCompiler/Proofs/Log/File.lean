import RequestCompiler.Log.Store
import RequestCompiler.Proofs.Files.World
import RequestCompiler.Proofs.Log.Reading
import RequestCompiler.Proofs.Log.Ulid

/-!
# Logs in files

In a sound world a log is the content of one file below the home directory, at the place that its path
has once it is encoded (`eq_of_locate`). An append that fails changes nothing, and one that succeeds adds
its line at the end of what the log held (`append_cases`). Whether the reader finds a recorded entry depends
on what was there before: it does exactly if nothing but a gap stood after the last line end
(`kept_iff_isGap`).
-/

namespace RequestCompiler.LogFile

open LogContent (rest)

/-- What a log of a home holds in a world. -/
def content (w : World) (home name : Text) : Except FileFault Text :=
  ((readRaw home name : StateM World (Except FileFault Text)).run w).1

variable {w w' : World} {home n line c : Text}

section Place

/-- The segments of a log's directory. -/
def segmentsOf (home : Text) : List Text :=
  Path.segments (Path.isAbsolute home) home ++ [Text.ofString "logs"]

theorem isName_logs : Path.IsName (Text.ofString "logs") :=
  ⟨by decide, by decide, by decide, by decide⟩

theorem isName_compileLogName : Path.IsName compileLogName :=
  ⟨by decide, by decide, by decide, by decide⟩

theorem settled_segmentsOf (home : Text) :
    Path.Settled (Path.isAbsolute home) (segmentsOf home).reverse := by
  rw [segmentsOf, List.reverse_append]
  exact .name (Path.settled_segments home) isName_logs

theorem segmentsOf_ne_nil (home : Text) : segmentsOf home ≠ [] := by simp [segmentsOf]

/-- The segments of a log's directory in their encodable form. -/
def encodedSegments (home : Text) : List Text := (segmentsOf home).map Text.scrub

theorem settled_encodedSegments (home : Text) :
    Path.Settled (Path.isAbsolute home) (encodedSegments home).reverse := by
  rw [encodedSegments, ← List.map_reverse]
  exact (settled_segmentsOf home).scrub

theorem encodedSegments_ne_nil (home : Text) : encodedSegments home ≠ [] := by
  simp [encodedSegments, segmentsOf_ne_nil]

/-- The place of a log's directory. -/
def folder (w : World) (home : Text) : List Text :=
  w.place (Path.isAbsolute home) (encodedSegments home)

/-- The place of a log. -/
def placeOf (w : World) (home name : Text) : List Text := folder w home ++ [name.scrub]

/-- The path of a log. -/
def pathOf (home name : Text) : Text :=
  Path.ofSegments (Path.isAbsolute home) (segmentsOf home ++ [name])

theorem directoryOf_eq (home : Text) :
    directoryOf home = Path.ofSegments (Path.isAbsolute home) (segmentsOf home) :=
  Path.join_name home isName_logs

theorem pathOf_eq (home n : Text) : pathOf home n = directoryOf home ++ Path.separator :: n := by
  rw [pathOf, Path.ofSegments_append_name (segmentsOf_ne_nil home), directoryOf_eq]

theorem scrub_directoryOf (home : Text) :
    (directoryOf home).scrub = Path.ofSegments (Path.isAbsolute home) (encodedSegments home) := by
  rw [directoryOf_eq, Path.scrub_ofSegments, encodedSegments]

theorem scrub_pathOf (home n : Text) : (pathOf home n).scrub =
    Path.ofSegments (Path.isAbsolute home) (encodedSegments home ++ [n.scrub]) := by
  rw [pathOf, Path.scrub_ofSegments, List.map_append, encodedSegments]
  rfl

theorem pathOf_ne_nil (home n : Text) : pathOf home n ≠ [] := by simp [pathOf_eq]

theorem directoryOf_ne_nil (home : Text) : directoryOf home ≠ [] := by
  intro empty
  have pieces := Path.splitAt_ofSegments (settled_segmentsOf home) (segmentsOf_ne_nil home)
  rw [← directoryOf_eq, empty] at pieces
  have last := congrArg List.getLast? pieces
  simp [Text.splitAt, segmentsOf] at last
  exact absurd last (by decide)

theorem usable_pathOf_iff :
    Path.nul ∉ pathOf home n ↔ Path.nul ∉ directoryOf home ∧ Path.nul ∉ n := by
  have other : Path.nul ≠ Path.separator := by decide
  rw [pathOf_eq, List.mem_append, not_or, List.mem_cons, not_or, and_iff_right other]

theorem settled_pathOf (home : Text) (name : Path.IsName n) :
    Path.Settled (Path.isAbsolute home) (encodedSegments home ++ [n.scrub]).reverse := by
  rw [List.reverse_append]
  exact .name (settled_encodedSegments home) name.scrub

theorem eq_of_locate {t : FileTree} {q : List Text} (sound : w.Sound) (name : Path.IsName n)
    (way : t.locate (w.rooted (pathOf home n).scrub) = .ok q) : q = placeOf w home n := by
  rw [scrub_pathOf] at way
  rw [World.eq_of_locate sound (settled_pathOf home name) (by simp) way,
    World.place_append_name name.scrub]
  rfl

theorem locate_pathOf (sound : w.Sound) (name : Path.IsName n)
    (there : w.files.node? (folder w home) = some .directory) :
    w.files.locate (w.rooted (pathOf home n).scrub) = .ok (placeOf w home n) := by
  rw [scrub_pathOf]
  exact World.locate_name sound (settled_encodedSegments home) (encodedSegments_ne_nil home)
    name.scrub there

end Place

section Content

theorem run_readRaw (name : Path.IsName n) :
    (readRaw home n : StateM World (Except FileFault Text)).run w =
      (match w.withPath (pathOf home n) w.files.read with
        | .error fault => if fault.hasCode "ENOENT" then .ok [] else .error fault
        | .ok c => .ok c, w) := by
  have path : Path.join [home, "logs", n] = pathOf home n := by
    rw [(Path.join_join home isName_logs name).2, pathOf_eq]
    rfl
  rw [readRaw, path]
  simp only [StateT.run_bind, World.run_readFile]
  cases w.withPath (pathOf home n) w.files.read <;> rfl

/-- A read answers with what a log holds, and changes nothing. -/
theorem run_readRaw_eq_content (name : Path.IsName n) :
    (readRaw home n : StateM World (Except FileFault Text)).run w = (content w home n, w) := by
  rw [content, run_readRaw name]

theorem content_eq (name : Path.IsName n) (usable : Path.nul ∉ pathOf home n) :
    content w home n = match w.files.read (w.rooted (pathOf home n).scrub) with
    | .error fault => if fault.hasCode "ENOENT" then .ok [] else .error fault
    | .ok c => .ok c := by
  rw [content, run_readRaw name, World.withPath_eq (pathOf_ne_nil home n) usable]

/-- A log that can be read has a path without a NUL. -/
theorem usable_of_content (name : Path.IsName n) (held : content w home n = .ok c) :
    Path.nul ∉ pathOf home n := by
  intro refused
  rw [content, run_readRaw name, World.withPath_unusable (pathOf_ne_nil home n) refused] at held
  cases held

/-- A log that can be read is a file, or nothing is there. -/
theorem holdsText_of_content (sound : w.Sound) (name : Path.IsName n)
    (held : content w home n = .ok c) : w.files.HoldsText (placeOf w home n) c := by
  rw [content_eq name (usable_of_content name held), FileTree.read] at held
  cases way : w.files.locate (w.rooted (pathOf home n).scrub) with
  | ok q =>
    obtain rfl := eq_of_locate sound name way
    cases node : w.files.node? (placeOf w home n) with
    | none =>
      simp only [way, bind, Except.bind, node] at held
      exact .inr ⟨node, (Except.ok.inj held).symm⟩
    | some found =>
      cases found with
      | directory =>
        have other : ¬FileFault.isDirectory.hasCode "ENOENT" = true := by decide
        simp only [way, bind, Except.bind, node, if_neg other] at held
        cases held
      | file c' =>
        simp only [way, bind, Except.bind, node] at held
        exact .inl (Except.ok.inj held ▸ node)
  | error e =>
    -- Something at the place would make the way to it one through directories.
    have free : w.files.node? (placeOf w home n) = none := by
      by_contra found
      obtain ⟨node, here⟩ := Option.ne_none_iff_exists'.1 found
      rw [locate_pathOf sound name (sound.grounded _ _ _ here)] at way
      cases way
    simp only [way, bind, Except.bind] at held
    split at held
    · exact .inr ⟨free, (Except.ok.inj held).symm⟩
    · cases held

section Usable

variable (sound : w.Sound) (name : Path.IsName n) (usable : Path.nul ∉ pathOf home n)
include sound name usable

theorem content_of_file (node : w.files.node? (placeOf w home n) = some (.file c)) :
    content w home n = .ok c := by
  have way := locate_pathOf sound name (sound.grounded _ _ _ node)
  rw [content_eq name usable, FileTree.read, way]
  simp only [bind, Except.bind, node]

/-- With no file in the way to its directory, a log holds what is at its place. -/
theorem content_of_holdsText (unblocked : w.files.Unblocked (folder w home))
    (holds : w.files.HoldsText (placeOf w home n) c) : content w home n = .ok c := by
  rcases holds with file | ⟨free, rfl⟩
  · exact content_of_file sound name usable file
  · have place : w.place (Path.isAbsolute home) (encodedSegments home ++ [n.scrub]) = placeOf w home n :=
      World.place_append_name name.scrub
    have unblocked' : w.files.Unblocked (placeOf w home n) := by
      intro q text lead file
      rcases List.prefix_concat_iff.1 lead with rfl | above
      · exact nomatch file.symm.trans free
      · exact unblocked q text above file
    rw [← place] at unblocked' free
    rw [content_eq name usable, FileTree.read, scrub_pathOf]
    rcases World.locate_of_unblocked sound (settled_pathOf home name) (by simp) unblocked' with way | way
    · rw [way]
      simp only [bind, Except.bind, free]
      rfl
    · rw [way]
      rfl

end Usable

end Content

section Append

theorem run_append (name : Path.IsName n) (usable : Path.nul ∉ pathOf home n) :
    (append home n line : StateM World (Except FileFault Unit)).run w =
      match w.files.makeDirectories (w.rooted (directoryOf home).scrub) with
      | .error e => (.error e, w)
      | .ok t =>
        match t.append (w.rooted (pathOf home n).scrub) (line ++ [unit '\n']) with
        | .error e => (.error e, { w with files := t })
        | .ok t' => (.ok (), { w with files := t' }) := by
  have path : Path.join [directoryOf home, n] = pathOf home n := by
    rw [directoryOf, (Path.join_join home isName_logs name).1, pathOf_eq]
    rfl
  have made : (Host.makeDirectories (directoryOf home) :
      StateM World (Except FileFault Unit)).run w = _ :=
    World.run_update (directoryOf_ne_nil home) (usable_pathOf_iff.1 usable).1 FileTree.makeDirectories
  have appended : ∀ w : World, (Host.appendFile (pathOf home n) (line ++ [unit '\n']) :
      StateM World (Except FileFault Unit)).run w = _ := fun w =>
    World.run_update (pathOf_ne_nil home n) usable fun t path => t.append path (line ++ [unit '\n'])
  rw [append, path]
  simp only [StateT.run_bind, made]
  cases w.files.makeDirectories (w.rooted (directoryOf home).scrub) with
  | error e => rfl
  | ok t =>
    refine (appended _).trans ?_
    dsimp only [World.rooted]
    cases t.append _ (line ++ [unit '\n']) <;> rfl

theorem makeDirectories_eq (sound : w.Sound) :
    w.files.makeDirectories (w.rooted (directoryOf home).scrub) =
      w.files.makeBelow [] (folder w home) := by
  rw [FileTree.makeDirectories, scrub_directoryOf,
    World.segments_rooted sound (settled_encodedSegments home) (encodedSegments_ne_nil home), folder]

/-- An append makes the directory and adds its line at the end of what is at the place of the log. -/
theorem append_of_made {t : FileTree} (line : Text) (sound : w.Sound) (name : Path.IsName n)
    (usable : Path.nul ∉ pathOf home n) (holds : w.files.HoldsText (placeOf w home n) c)
    (made : w.files.makeBelow [] (folder w home) = .ok t) :
    (append home n line : StateM World (Except FileFault Unit)).run w = (.ok (),
        { w with files := t.put (placeOf w home n) (.file (c ++ (line ++ [unit '\n']).scrub)) }) ∧
      ({ w with
        files := t.put (placeOf w home n) (.file (c ++ (line ++ [unit '\n']).scrub)) } : World).Sound := by
  obtain ⟨grounded, there⟩ := FileTree.makeBelow_made sound.grounded rfl made
  rw [List.nil_append] at there
  have sound' : ({ w with files := t } : World).Sound :=
    sound.mono grounded fun _ => FileTree.makeBelow_keeps made
  have way : t.locate (w.rooted (pathOf home n).scrub) = .ok (placeOf w home n) :=
    locate_pathOf sound' name there
  -- The directories are made above the place of the log, so it is as it was.
  have holds' : t.HoldsText (placeOf w home n) c := by
    have same := FileTree.node?_makeBelow made n.scrub
    rw [List.nil_append] at same
    rwa [FileTree.HoldsText, placeOf, same]
  refine ⟨?_, sound'.mono (grounded.put there holds'.not_directory) fun _ =>
    holds'.directory_put (by simp [placeOf])⟩
  rw [run_append name usable, makeDirectories_eq sound, made]
  dsimp only
  rw [holds'.append_eq way]

/-- An append to a log that can be read fails and changes nothing, or adds its line at the end. -/
theorem append_cases (line : Text) (sound : w.Sound) (name : Path.IsName n)
    (held : content w home n = .ok c) :
    (∃ e, (append home n line : StateM World (Except FileFault Unit)).run w = (.error e, w)) ∨
      ∃ files, (append home n line : StateM World (Except FileFault Unit)).run w =
          (.ok (), { w with files := files }) ∧ ({ w with files := files } : World).Sound ∧
        content { w with files := files } home n = .ok (c ++ (line ++ [unit '\n']).scrub) := by
  have usable := usable_of_content name held
  cases made : w.files.makeBelow [] (folder w home) with
  | error e =>
    left
    rw [run_append name usable, makeDirectories_eq sound, made]
    exact ⟨e, rfl⟩
  | ok t =>
    obtain ⟨done, sound'⟩ :=
      append_of_made line sound name usable (holdsText_of_content sound name held) made
    refine .inr ⟨_, done, sound', content_of_file sound' name usable ?_⟩
    change (FileTree.put _ (placeOf w home n) _).node? (placeOf w home n) = _
    rw [FileTree.node?_put (by simp [placeOf])]
    exact if_pos rfl

end Append

section Record

variable {e : LogEntry} {now : Int} {random : List UInt8}

/-- A record fails and changes nothing, or adds the line of its entry to what the log held. -/
theorem record_cases (e : LogEntry) (sound : w.Sound)
    (held : content w home compileLogName = .ok c) :
    (∃ fault, (record home e : StateM World (Except FileFault Unit)).run w = (.error fault, w)) ∨
      ∃ w', (record home e : StateM World (Except FileFault Unit)).run w = (.ok (), w') ∧ w'.Sound ∧
        content w' home compileLogName = .ok (c ++ (e.line w.freshId ++ [unit '\n'])) := by
  have whole : (e.line w.freshId ++ [unit '\n']).wellFormed = true :=
    (Text.wellFormed_append (e.wellFormed_line _) _).trans rfl
  rcases append_cases (e.line w.freshId) sound isName_compileLogName held with
    ⟨fault, failed⟩ | ⟨files, done, sound', grown⟩
  · exact .inl ⟨fault, failed⟩
  · rw [Text.scrub_eq_self whole] at grown
    exact .inr ⟨_, done, sound', grown⟩

theorem content_of_record (sound : w.Sound) (held : content w home compileLogName = .ok c)
    (recorded : (record home e : StateM World (Except FileFault Unit)).run w = (.ok (), w')) :
    content w' home compileLogName = .ok (c ++ (e.line w.freshId ++ [unit '\n'])) := by
  rcases record_cases e sound held with ⟨fault, failed⟩ | ⟨_, done, -, grown⟩
  · cases recorded.symm.trans failed
  · obtain ⟨-, rfl⟩ := Prod.mk.inj (recorded.symm.trans done)
    exact grown

/-- A world with nothing but a compile log below the root. -/
def logWorld (raw : Text) : World where
  files := (FileTree.empty.put [Text.ofString "logs"] .directory).put
    [Text.ofString "logs", compileLogName] (.file raw)
  environment := []
  directory := [Path.separator]
  timestamp := []
  freshId := Ulid.make 0 (List.replicate 10 0)

/-- The entry of a request that was answered with a question. -/
def clarifiedEntry : LogEntry where
  timestamp := "2026-01-01T00:00:00.000Z"
  registryHash := []
  inputHash := []
  audience := .dev
  mode := .bundleOnly
  appliedMode := .bundleOnly
  returnMode := .dslPlusConfidence
  state := .clarify
  bundleId := none
  confidence := ⟨0⟩

theorem sound_logWorld (raw : Text) : (logWorld raw).Sound where
  grounded := by
    have below : ((FileTree.empty.put [Text.ofString "logs"] .directory).node?
        [Text.ofString "logs", compileLogName]) = none := by decide
    refine (FileTree.grounded_empty.put (p := []) rfl (by decide)).put
      (p := [Text.ofString "logs"]) (by decide) ?_
    exact fun directory => nomatch below.symm.trans directory
  absolute := rfl
  opened := rfl

theorem content_logWorld (raw : Text) :
    content (logWorld raw) [Path.separator] compileLogName = .ok raw :=
  content_of_file (sound_logWorld raw) isName_compileLogName (by decide)
    ((FileTree.node?_put (by decide)).trans (if_pos rfl))

theorem exists_record (raw : Text) : ∃ w', (record [Path.separator] clarifiedEntry :
    StateM World (Except FileFault Unit)).run (logWorld raw) = (.ok (), w') := ⟨_, rfl⟩

theorem fresh_logWorld {raw : Text} (single : unit '\n' ∉ raw) :
    (logWorld raw).freshId ∉ (LogContent.read raw).events.map LogEvent.eventId := by
  rw [LogContent.events_eq_nil single]
  exact List.not_mem_nil

/-- A log of which the write of the first line was interrupted. -/
def tornLog : Text := "\x7b\"event_id\":\"01"

/-- An entry that was recorded under a fresh identifier is found by the reader, next to the events of
before, exactly if only a gap stood after the last line end of the log. -/
theorem kept_iff_isGap (sound : w.Sound) (held : content w home compileLogName = .ok c)
    (drawn : w.freshId = Ulid.make now random)
    (fresh : w.freshId ∉ (LogContent.read c).events.map LogEvent.eventId)
    (recorded : (record home e : StateM World (Except FileFault Unit)).run w = (.ok (), w')) :
    ∃ c', content w' home compileLogName = .ok c' ∧
      (∀ v ∈ (LogContent.read c).events, v ∈ (LogContent.read c').events) ∧
        (LogContent.Kept c c' w.freshId e ↔ Json.IsGap (rest c)) :=
  ⟨_, content_of_record sound held recorded,
    LogContent.kept_append_iff e (drawn ▸ Ulid.make_ne_nil now random) fresh⟩

theorem kept_iff_isGap_empty : ∃ w' c', content w' [Path.separator] compileLogName = .ok c' ∧
    LogContent.Kept [] c' (logWorld []).freshId clarifiedEntry := by
  obtain ⟨w', recorded⟩ := exists_record []
  obtain ⟨c', grown, -, kept⟩ := kept_iff_isGap (sound_logWorld []) (content_logWorld []) rfl
    (fresh_logWorld List.not_mem_nil) recorded
  exact ⟨w', c', grown, kept.2 nofun⟩

theorem not_always_kept : ¬∀ (w w' : World) (home c : Text) (e : LogEntry), w.Sound →
    content w home compileLogName = .ok c →
      (∃ now random, w.freshId = Ulid.make now random) →
        w.freshId ∉ (LogContent.read c).events.map LogEvent.eventId →
          (record home e : StateM World (Except FileFault Unit)).run w = (.ok (), w') →
            ∃ c', content w' home compileLogName = .ok c' ∧ LogContent.Kept c c' w.freshId e := by
  intro always
  have single : unit '\n' ∉ tornLog := by decide
  have sound := sound_logWorld tornLog
  have held := content_logWorld tornLog
  obtain ⟨w', recorded⟩ := exists_record tornLog
  obtain ⟨c', grown, kept⟩ := always _ w' _ _ _ sound held ⟨0, List.replicate 10 0, rfl⟩
    (fresh_logWorld single) recorded
  obtain rfl := Except.ok.inj ((content_of_record sound held recorded).symm.trans grown)
  have blank := (LogContent.kept_append_iff clarifiedEntry (Ulid.make_ne_nil _ _)
    (fresh_logWorld single)).2.1 kept
  rw [LogContent.rest_of_not_mem single] at blank
  exact absurd (blank (unit '\x7b') (by decide)) (by decide)

end Record

end RequestCompiler.LogFile
