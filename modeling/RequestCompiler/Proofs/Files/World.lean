import RequestCompiler.Host
import RequestCompiler.Proofs.Files.Tree

/-!
# Paths in a world

A `Sound` world has a grounded tree and a working directory in it. A path of settled segments, rooted
or not, leads in such a world to the place that its segments say, once a directory is there
(`locate_of_directory`), and nowhere else (`eq_of_locate`).
-/

namespace RequestCompiler

/-- Everything stands in a directory, and the working directory is one. -/
structure World.Sound (w : World) : Prop where
  grounded : w.files.Grounded
  absolute : Path.isAbsolute w.directory = true
  opened : w.files.isDirectory w.directory = true

namespace World

variable {w : World} {rooted : Bool} {ss : List Text} {q : List Text}

/-- The segments that a path is preceded by. -/
def base (w : World) (rooted : Bool) : List Text :=
  if rooted then [] else (w.directory.splitAt Path.separator).tail

/-- The place that a path says, where `..` takes away the segment before it. -/
def place (w : World) (rooted : Bool) (ss : List Text) : List Text :=
  ((w.base rooted ++ ss).foldl (Path.push true) []).reverse

theorem place_append_name {n : Text} (name : Path.IsName n) :
    w.place rooted (ss ++ [n]) = w.place rooted ss ++ [n] := by
  rw [place, ← List.append_assoc, List.foldl_append, List.foldl_cons, List.foldl_nil,
    Path.push_name name, List.reverse_cons]
  rfl

theorem run_readFile (path : Text) : (Host.readFile path : StateM World (Except FileFault Text)).run w =
    (w.withPath path w.files.read, w) := rfl

section Operations

variable {path : Text} (ne : path ≠ [])
include ne

/-- A path with a NUL in it is refused. -/
theorem withPath_unusable {α : Type} (refused : Path.nul ∈ path) (f : Text → Except FileFault α) :
    w.withPath path f = .error .unusable := by
  rw [withPath, if_neg (by simpa using ne), if_pos refused]

variable (usable : Path.nul ∉ path)
include usable

/-- Every other path leads somewhere or fails. -/
theorem withPath_eq {α : Type} (f : Text → Except FileFault α) :
    w.withPath path f = f (w.rooted path.scrub) := by
  rw [withPath, if_neg (by simpa using ne), if_neg usable]

theorem run_update (change : FileTree → Text → Except FileFault FileTree) :
    (update fun w => w.withPath path (change w.files)).run w =
      match change w.files (w.rooted path.scrub) with
      | .ok files => (.ok (), { w with files := files })
      | .error e => (.error e, w) := by
  have own := withPath_eq ne usable (w := w) (change w.files)
  cases changed : change w.files (w.rooted path.scrub) with
  | ok files => simp only [StateT.run, update, own, changed]
  | error e => simp only [StateT.run, update, own, changed]

end Operations

theorem Sound.mono (sound : w.Sound) {t : FileTree} (grounded : t.Grounded)
    (more : ∀ p, w.files.node? p = some .directory → t.node? p = some .directory) :
    ({ w with files := t } : World).Sound where
  grounded := grounded
  absolute := sound.absolute
  opened := by
    obtain ⟨p, way, directory⟩ := FileTree.isDirectory_iff.1 sound.opened
    exact FileTree.isDirectory_iff.2 ⟨p, FileTree.locate_mono more way, more p directory⟩

/-- No piece of what precedes a path has a separator in it. -/
theorem whole_base : ∀ s ∈ w.base rooted, Path.separator ∉ s := by
  intro s member
  rw [base] at member
  split at member
  · exact absurd member List.not_mem_nil
  · exact Text.not_mem_of_mem_splitAt (List.mem_of_mem_tail member)

section Paths

variable (sound : w.Sound) (settled : Path.Settled rooted ss.reverse) (ne : ss ≠ [])
include sound

theorem splitAt_directory :
    w.directory.splitAt Path.separator = [] :: (w.directory.splitAt Path.separator).tail := by
  obtain ⟨t, absolute⟩ := List.head?_eq_some_iff.1 (beq_iff_eq.1 sound.absolute)
  rw [absolute, Text.splitAt_sep]
  rfl

/-- What precedes a path leads to a directory. -/
theorem exists_follow_base (rooted : Bool) : ∃ p, w.files.follow [] (w.base rooted) = .ok p ∧
    w.files.node? p = some .directory ∧ (∀ s ∈ p, Path.IsName s) ∧
      p.reverse = (w.base rooted).foldl (Path.push true) [] := by
  have opened : ∃ p, w.files.follow [] (w.base rooted) = .ok p ∧
      w.files.node? p = some .directory := by
    cases rooted with
    | true => exact ⟨[], rfl, rfl⟩
    | false =>
      obtain ⟨p, way, directory⟩ := FileTree.isDirectory_iff.1 sound.opened
      rw [FileTree.locate, splitAt_directory sound] at way
      exact ⟨p, way, directory⟩
  obtain ⟨p, way, directory⟩ := opened
  have place := FileTree.eq_of_follow (List.forall_mem_nil _) whole_base way
  have settled : Path.Settled true p.reverse := by
    rw [place, List.reverse_reverse]
    exact .foldl .nil (whole_base)
  refine ⟨p, way, directory, fun s member => ?_, by rw [place, List.reverse_reverse]; rfl⟩
  obtain ⟨names, k, form, each, bottom⟩ := settled.eq_append_replicate
  rw [bottom rfl, List.replicate_zero, List.append_nil] at form
  exact each s (form ▸ List.mem_reverse.2 member)

include settled ne

theorem splitAt_rooted :
    (w.rooted (Path.ofSegments rooted ss)).splitAt Path.separator = [] :: (w.base rooted ++ ss) := by
  have absolute := Path.isAbsolute_ofSegments settled ne
  have pieces := Path.splitAt_ofSegments settled ne
  cases rooted with
  | true =>
    rw [World.rooted, if_pos absolute, pieces]
    rfl
  | false =>
    rw [World.rooted, if_neg (by simp [absolute]), Text.splitAt_append, pieces,
      splitAt_directory sound]
    rfl

theorem locate_eq (t : FileTree) :
    t.locate (w.rooted (Path.ofSegments rooted ss)) = t.follow [] (w.base rooted ++ ss) := by
  rw [FileTree.locate, splitAt_rooted sound settled ne]

theorem segments_rooted :
    Path.segments true (w.rooted (Path.ofSegments rooted ss)) = w.place rooted ss := by
  rw [Path.segments, splitAt_rooted sound settled ne]
  rfl

theorem eq_of_locate {t : FileTree}
    (way : t.locate (w.rooted (Path.ofSegments rooted ss)) = .ok q) : q = w.place rooted ss := by
  have whole : ∀ s ∈ w.base rooted ++ ss, Path.separator ∉ s := by
    intro s member
    rcases List.mem_append.1 member with before | own
    · exact whole_base s before
    · exact settled.whole s (List.mem_reverse.2 own)
  rw [locate_eq sound settled ne] at way
  exact FileTree.eq_of_follow (List.forall_mem_nil _) whole way

/-- From what precedes a path, its segments lead to its place. -/
theorem exists_follow_rooted : ∃ p, w.files.node? p = some .directory ∧ (∀ s ∈ p, Path.IsName s) ∧
    w.files.locate (w.rooted (Path.ofSegments rooted ss)) = w.files.follow p ss ∧
      w.place rooted ss = FileTree.landing p ss := by
  obtain ⟨p, way, directory, names, stack⟩ := exists_follow_base sound rooted
  refine ⟨p, directory, names, ?_, ?_⟩
  · rw [locate_eq sound settled ne, FileTree.follow_append, way]
    rfl
  · rw [place, List.foldl_append, ← stack, FileTree.landing]

theorem locate_of_directory (there : w.files.node? (w.place rooted ss) = some .directory) :
    w.files.locate (w.rooted (Path.ofSegments rooted ss)) = .ok (w.place rooted ss) := by
  obtain ⟨p, directory, names, way, place⟩ := exists_follow_rooted sound settled ne
  rw [place] at there ⊢
  rw [way]
  exact FileTree.follow_settled directory sound.grounded settled names there

/-- With no file in its way, a path leads to its place or to something missing before it. -/
theorem locate_of_unblocked (unblocked : w.files.Unblocked (w.place rooted ss)) :
    w.files.locate (w.rooted (Path.ofSegments rooted ss)) = .ok (w.place rooted ss) ∨
      w.files.locate (w.rooted (Path.ofSegments rooted ss)) = .error .missing := by
  obtain ⟨p, directory, names, way, place⟩ := exists_follow_rooted sound settled ne
  rw [place] at unblocked ⊢
  rw [way]
  exact FileTree.follow_settled_of_unblocked directory sound.grounded settled names unblocked

/-- A name below a directory leads into it, whether something is there or not. -/
theorem locate_name {n : Text} (name : Path.IsName n)
    (there : w.files.node? (w.place rooted ss) = some .directory) :
    w.files.locate (w.rooted (Path.ofSegments rooted (ss ++ [n]))) =
      .ok (w.place rooted ss ++ [n]) := by
  have settled' : Path.Settled rooted (ss ++ [n]).reverse := by
    rw [List.reverse_append]
    exact .name settled name
  have way := locate_of_directory sound settled ne there
  rw [locate_eq sound settled ne] at way
  rw [locate_eq sound settled' (by simp), ← List.append_assoc, FileTree.follow_append, way]
  exact FileTree.follow_name there name []

end Paths

end World

end RequestCompiler
