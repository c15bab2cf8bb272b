import Mathlib.Data.List.Induction
import RequestCompiler.Files.Tree
import RequestCompiler.Proofs.Except
import RequestCompiler.Proofs.Files.Path
import RequestCompiler.Proofs.Lookup

/-!
# Trees of files

In a `Grounded` tree everything stands in a directory. Making directories and putting files into them
keep a tree so, and a path through directories leads where its segments say, in this tree and in every
one with more directories (`follow_settled`, `follow_mono`). If no file is in the way, the directories of
a place can be made (`exists_makeBelow`), and before that a path to it leads to nothing
(`follow_settled_of_unblocked`).
-/

namespace RequestCompiler.FileTree

variable {t t' : FileTree} {n : FileNode} {p q : List Text} {s : Text}

section Places

theorem node?_put (ne : q ≠ []) : (t.put q n).node? p = if p = q then some n else t.node? p := by
  by_cases root : p = []
  · subst root
    exact (if_neg (Ne.symm ne)).symm
  have place : ¬p.isEmpty = true := by simpa using root
  by_cases same : p = q
  · subst same
    simp [node?, put, place]
  · have apart : (q == p) = false := by simpa using Ne.symm same
    rw [if_neg same, node?, node?, if_neg place, if_neg place]
    simp only [put, List.find?_cons, apart]
    rw [find?_filter_other same]

/-- Everything stands in a directory. -/
def Grounded (t : FileTree) : Prop :=
  ∀ p s n, t.node? (p ++ [s]) = some n → t.node? p = some .directory

theorem grounded_empty : empty.Grounded := by
  intro p s n node
  simp [empty, node?] at node

/-- What stands above something is a directory. -/
theorem Grounded.above (grounded : t.Grounded) {r : List Text} (ne : r ≠ [])
    (node : t.node? (p ++ r) = some n) : t.node? p = some .directory := by
  induction r using List.reverseRecOn generalizing n with
  | nil => exact absurd rfl ne
  | append_singleton r s ih =>
    rw [← List.append_assoc] at node
    have parent := grounded _ s n node
    by_cases last : r = []
    · rwa [last, List.append_nil] at parent
    · exact ih last parent

/-- Below a place where nothing stands there is nothing. -/
theorem Grounded.free_below (grounded : t.Grounded) (free : t.node? p = none) {r : List Text} (ne : r ≠ []) :
    t.node? (p ++ r) = none := by
  by_contra found
  obtain ⟨n, node⟩ := Option.ne_none_iff_exists'.1 found
  have directory := grounded.above ne node
  rw [free] at directory
  cases directory

theorem Grounded.put (grounded : t.Grounded) (parent : t.node? p = some .directory)
    (free : t.node? (p ++ [s]) ≠ some .directory) : (t.put (p ++ [s]) n).Grounded := by
  intro q s' n' node
  rw [node?_put (by simp)] at node ⊢
  have directory : t.node? q = some .directory := by
    split at node
    · rename_i same
      rw [(List.append_inj_left' same rfl : q = p)]
      exact parent
    · exact grounded q s' n' node
  rwa [if_neg]
  rintro rfl
  exact free directory

/-- What is removed takes everything below it along. -/
theorem node?_remove {path : Text} (ne : p ≠ []) :
    (t.remove path).node? p = if Path.segments true path <+: p then none else t.node? p := by
  have place : ¬p.isEmpty = true := by simpa using ne
  have keep : (!(Path.segments true path).isPrefixOf p) = true ↔ ¬Path.segments true path <+: p := by
    rw [Bool.not_eq_true', ← Bool.not_eq_true, List.isPrefixOf_iff_prefix]
  rw [node?, node?, if_neg place, if_neg place, remove]
  split
  · rename_i gone
    rw [Option.map_eq_none_iff, List.find?_eq_none]
    rintro ⟨q, n⟩ member here
    obtain rfl := beq_iff_eq.1 here
    exact keep.1 (List.mem_filter.1 member).2 gone
  · rename_i kept
    exact congrArg (Option.map _)
      (find?_filter_key (fun q => !(Path.segments true path).isPrefixOf q) (keep.2 kept) t.places)

theorem Grounded.remove (grounded : t.Grounded) (path : Text) : (t.remove path).Grounded := by
  intro p s n node
  rw [node?_remove (by simp)] at node
  split at node
  · cases node
  · rename_i kept
    have parent := grounded p s n node
    by_cases root : p = []
    · rw [root]
      rfl
    · rwa [node?_remove root, if_neg fun gone => kept (gone.trans (List.prefix_append p [s]))]

/-- No file stands at a place or on the way to it. -/
def Unblocked (t : FileTree) (p : List Text) : Prop := ∀ q c, q <+: p → t.node? q ≠ some (.file c)

/-- Nothing is in the way of a place that is free in a directory. -/
theorem Grounded.unblocked (grounded : t.Grounded) (parent : t.node? p = some .directory)
    (free : t.node? (p ++ [s]) = none) : t.Unblocked (p ++ [s]) := by
  intro q c lead file
  rcases List.prefix_concat_iff.1 lead with rfl | ⟨r, rfl⟩
  · exact nomatch free.symm.trans file
  · by_cases last : r = []
    · rw [last, List.append_nil] at parent
      exact nomatch parent.symm.trans file
    · exact nomatch (grounded.above last parent).symm.trans file

/-- Something new that is no file is in nobody's way, and neither is what is put elsewhere. -/
theorem Unblocked.put (unblocked : t.Unblocked p) (ne : q ≠ [])
    (aside : ¬q <+: p ∨ ∀ c, n ≠ .file c) : (t.put q n).Unblocked p := by
  intro r c lead file
  rw [node?_put ne] at file
  split at file
  · rename_i same
    rcases aside with off | other
    · exact off (same ▸ lead)
    · exact other c (Option.some.inj file)
  · exact unblocked r c lead file

end Places

section Making

variable {segments : List Text}

/-- Directories can be made where no file is in the way. -/
theorem exists_makeBelow (unblocked : t.Unblocked (p ++ segments)) :
    ∃ t', t.makeBelow p segments = .ok t' := by
  induction segments generalizing t p with
  | nil => exact ⟨t, rfl⟩
  | cons s r ih =>
    rw [List.append_cons] at unblocked
    rw [makeBelow]
    split
    · exact ih (unblocked.put (by simp) (.inr nofun))
    · exact ih unblocked
    · rename_i c file
      exact absurd file (unblocked _ c (List.prefix_append _ r))

/-- Making directories keeps what is there. -/
theorem makeBelow_keeps (made : t.makeBelow p segments = .ok t') (node : t.node? q = some n) :
    t'.node? q = some n := by
  induction segments generalizing t p with
  | nil =>
    obtain rfl := Except.ok.inj made
    exact node
  | cons s r ih =>
    rw [makeBelow] at made
    split at made
    · rename_i free
      refine ih made ?_
      rw [node?_put (by simp), if_neg]
      · exact node
      · rintro rfl
        exact nomatch free.symm.trans node
    · exact ih made node
    · cases made

/-- What is new are directories on the way. -/
theorem makeBelow_new (made : t.makeBelow p segments = .ok t') (node : t'.node? q = some n) :
    t.node? q = some n ∨ n = .directory ∧ ∃ r, r <+: segments ∧ q = p ++ r := by
  induction segments generalizing t p with
  | nil =>
    obtain rfl := Except.ok.inj made
    exact .inl node
  | cons s r ih =>
    have further : (∃ r', r' <+: r ∧ q = p ++ [s] ++ r') → ∃ r', r' <+: s :: r ∧ q = p ++ r' := by
      rintro ⟨r', lead, rfl⟩
      exact ⟨s :: r', List.cons_prefix_cons.2 ⟨rfl, lead⟩, by simp⟩
    rw [makeBelow] at made
    split at made
    · rcases ih made with old | ⟨directory, way⟩
      · rw [node?_put (by simp)] at old
        split at old
        · rename_i place
          exact .inr ⟨(Option.some.inj old).symm, [s], by simp, place⟩
        · exact .inl old
      · exact .inr ⟨directory, further way⟩
    · rcases ih made with old | ⟨directory, way⟩
      · exact .inl old
      · exact .inr ⟨directory, further way⟩
    · cases made

theorem Unblocked.makeBelow (unblocked : t.Unblocked q) (made : t.makeBelow p segments = .ok t') :
    t'.Unblocked q := by
  intro r c lead file
  rcases makeBelow_new made file with old | ⟨directory, -⟩
  · exact unblocked r c lead old
  · cases directory

/-- What is inside the directory that is asked for is as it was. -/
theorem node?_makeBelow (made : t.makeBelow p segments = .ok t') (s : Text) :
    t'.node? (p ++ segments ++ [s]) = t.node? (p ++ segments ++ [s]) := by
  cases old : t.node? (p ++ segments ++ [s]) with
  | some n => exact makeBelow_keeps made old
  | none =>
    by_contra found
    obtain ⟨n, new⟩ := Option.ne_none_iff_exists'.1 found
    rcases makeBelow_new made new with before | ⟨-, r, lead, same⟩
    · exact nomatch old.symm.trans before
    · rw [List.append_assoc, List.append_cancel_left_eq] at same
      have longer := lead.length_le
      rw [← same, List.length_append, List.length_singleton] at longer
      omega

/-- The directory that is asked for is there, and the tree is grounded if it was. -/
theorem makeBelow_made (grounded : t.Grounded) (parent : t.node? p = some .directory)
    (made : t.makeBelow p segments = .ok t') :
    t'.Grounded ∧ t'.node? (p ++ segments) = some .directory := by
  induction segments generalizing t p with
  | nil =>
    obtain rfl := Except.ok.inj made
    rw [List.append_nil]
    exact ⟨grounded, parent⟩
  | cons s r ih =>
    rw [List.append_cons]
    rw [makeBelow] at made
    split at made
    · rename_i free
      refine ih (grounded.put parent ?_) ?_ made
      · rw [free]
        exact nofun
      · rw [node?_put (by simp), if_pos rfl]
    · rename_i directory
      exact ih grounded directory made
    · cases made

end Making

section Following

theorem follow_append (t : FileTree) (p a b : List Text) :
    t.follow p (a ++ b) = (t.follow p a).bind fun q => t.follow q b := by
  induction a generalizing p with
  | nil => rfl
  | cons s a ih =>
    rw [List.cons_append, follow, follow]
    split
    · rfl
    · rfl
    · split_ifs
      · exact ih _
      · exact ih _
      · exact ih _

/-- More directories do not change where a path leads. -/
theorem follow_mono (more : ∀ p, t.node? p = some .directory → t'.node? p = some .directory)
    {a : List Text} (way : t.follow p a = .ok q) : t'.follow p a = .ok q := by
  induction a generalizing p with
  | nil => exact way
  | cons s a ih =>
    rw [follow] at way ⊢
    split at way
    · cases way
    · cases way
    · rename_i directory
      rw [more p directory]
      dsimp only
      split_ifs at way ⊢
      · exact ih way
      · exact ih way
      · exact ih way

theorem locate_mono (more : ∀ p, t.node? p = some .directory → t'.node? p = some .directory)
    {path : Text} (way : t.locate path = .ok q) : t'.locate path = .ok q := by
  rw [locate] at way ⊢
  split at way
  · cases way
  · exact follow_mono more way

theorem isDirectory_iff {path : Text} :
    t.isDirectory path = true ↔ ∃ p, t.locate path = .ok p ∧ t.node? p = some .directory := by
  rw [isDirectory]
  cases t.locate path with
  | ok p => simp
  | error e => simp

theorem directory_of_follow {a : List Text} (way : t.follow p (s :: a) = .ok q) :
    t.node? p = some .directory := by
  rw [follow] at way
  split at way
  · cases way
  · cases way
  · assumption

variable (directory : t.node? p = some .directory)
include directory

theorem follow_idle (idle : s = [] ∨ s = Path.here) (a : List Text) :
    t.follow p (s :: a) = t.follow p a := by
  rw [follow, directory]
  rcases idle with rfl | rfl <;> rfl

theorem follow_above (a : List Text) :
    t.follow p (Path.above :: a) = t.follow p.dropLast a := by
  rw [follow, directory]
  rfl

theorem follow_name (name : Path.IsName s) (a : List Text) :
    t.follow p (s :: a) = t.follow (p ++ [s]) a := by
  simp [follow, directory, name.ne_nil, name.ne_here, name.ne_above]

omit directory

/-- A path leads where its segments say. -/
theorem eq_of_follow {a : List Text} (names : ∀ s ∈ p, Path.IsName s)
    (whole : ∀ s ∈ a, Path.separator ∉ s) (way : t.follow p a = .ok q) :
    q = (a.foldl (Path.push true) p.reverse).reverse := by
  induction a generalizing p with
  | nil => rw [List.foldl_nil, List.reverse_reverse, Except.ok.inj way]
  | cons s a ih =>
    have directory := directory_of_follow way
    rw [List.forall_mem_cons] at whole
    rw [List.foldl_cons]
    rcases Path.segment_cases whole.1 with idle | rfl | name
    · rw [follow_idle directory idle] at way
      rw [Path.push_idle idle]
      exact ih names whole.2 way
    · rw [follow_above directory] at way
      rw [ih (fun s member => names s (List.dropLast_subset p member)) whole.2 way]
      cases p using List.reverseRecOn with
      | nil => rfl
      | append_singleton p last =>
        have name := names last (by simp)
        rw [List.dropLast_concat, List.reverse_append, List.reverse_singleton,
          List.singleton_append, Path.push_above_name name]
    · rw [follow_name directory name] at way
      have names' : ∀ s' ∈ p ++ [s], Path.IsName s' := by
        simpa [or_imp, forall_and, name] using names
      rw [Path.push_name name, ih names' whole.2 way, List.reverse_append]
      rfl

/-- Names lead down to a place below directories. -/
theorem follow_names {names : List Text} (each : ∀ s ∈ names, Path.IsName s)
    (grounded : t.Grounded) (there : t.node? (p ++ names) = some .directory) :
    t.follow p names = .ok (p ++ names) := by
  induction names generalizing p with
  | nil => rw [List.append_nil, follow]
  | cons s names ih =>
    rw [List.forall_mem_cons] at each
    rw [follow_name (grounded.above (by simp) there) each.1]
    have place : p ++ s :: names = p ++ [s] ++ names := List.append_cons p s names
    rw [place] at there ⊢
    exact ih each.2 there

/-- Steps above a directory lead to the directories above it. -/
theorem exists_follow_replicate (grounded : t.Grounded) (directory : t.node? p = some .directory)
    (k : Nat) : ∃ q, t.follow p (List.replicate k Path.above) = .ok q ∧ q <+: p ∧
      t.node? q = some .directory := by
  induction k generalizing p with
  | zero => exact ⟨p, rfl, List.prefix_rfl, directory⟩
  | succ k ih =>
    have parent : t.node? p.dropLast = some .directory := by
      cases p using List.reverseRecOn with
      | nil => rfl
      | append_singleton p s =>
        rw [List.dropLast_concat]
        exact grounded p s _ directory
    obtain ⟨q, way, lead, there⟩ := ih parent
    rw [List.replicate_succ, follow_above directory]
    exact ⟨q, way, lead.trans (List.dropLast_prefix p), there⟩

/-- Names lead to a place with no file in the way, or something is missing before it. -/
theorem follow_names_of_unblocked {names : List Text} (each : ∀ s ∈ names, Path.IsName s)
    (unblocked : t.Unblocked (p ++ names)) :
    t.follow p names = .ok (p ++ names) ∨ t.follow p names = .error .missing := by
  induction names generalizing p with
  | nil =>
    rw [List.append_nil, follow]
    exact .inl rfl
  | cons s names ih =>
    rw [List.forall_mem_cons] at each
    cases node : t.node? p with
    | none =>
      right
      rw [follow, node]
    | some found =>
      cases found with
      | file c => exact absurd node (unblocked p c (List.prefix_append _ _))
      | directory =>
        rw [List.append_cons] at unblocked ⊢
        rw [follow_name node each.1]
        exact ih each.2 unblocked

/-- The place that settled segments lead to from a directory. -/
def landing (p ss : List Text) : List Text := (ss.foldl (Path.push true) p.reverse).reverse

section Settled

variable {ss : List Text} {rooted : Bool} (grounded : t.Grounded)
  (settled : Path.Settled rooted ss.reverse) (names : ∀ s ∈ p, Path.IsName s)
include directory grounded settled names

/-- Settled segments lead from a directory to one above it, and from there down by names. -/
theorem exists_follow_below : ∃ q below, t.follow p ss = t.follow q below ∧
    landing p ss = q ++ below ∧ ∀ s ∈ below, Path.IsName s := by
  obtain ⟨below, k, form, each, -⟩ := settled.eq_append_replicate
  obtain rfl : ss = List.replicate k Path.above ++ below.reverse := by
    rw [← List.reverse_reverse ss, form, List.reverse_append, List.reverse_replicate]
  obtain ⟨q, up, -, -⟩ := exists_follow_replicate grounded directory k
  have whole : ∀ s ∈ List.replicate k Path.above, Path.separator ∉ s := by
    intro s member
    rw [List.eq_of_mem_replicate member]
    decide
  have place := eq_of_follow names whole up
  have each' : ∀ s ∈ below.reverse, Path.IsName s := by simpa using each
  refine ⟨q, below.reverse, ?_, ?_, each'⟩
  · rw [follow_append, up]
    rfl
  · rw [landing, List.foldl_append, ← List.reverse_reverse (List.foldl _ _ (List.replicate k _)),
      ← place, Path.foldl_names each', List.reverse_append, List.reverse_reverse,
      List.reverse_reverse]

/-- Settled segments lead from a directory to the place they say, if a directory is there. -/
theorem follow_settled (there : t.node? (landing p ss) = some .directory) :
    t.follow p ss = .ok (landing p ss) := by
  obtain ⟨q, below, same, place, each⟩ := exists_follow_below directory grounded settled names
  rw [place] at there ⊢
  rw [same]
  exact follow_names each grounded there

theorem follow_settled_of_unblocked (unblocked : t.Unblocked (landing p ss)) :
    t.follow p ss = .ok (landing p ss) ∨ t.follow p ss = .error .missing := by
  obtain ⟨q, below, same, place, each⟩ := exists_follow_below directory grounded settled names
  rw [place] at unblocked ⊢
  rw [same]
  exact follow_names_of_unblocked each unblocked

end Settled

end Following

section Texts

variable {path text c : Text}

/-- A file with the text is at the place, or nothing is and the text is empty. -/
def HoldsText (t : FileTree) (p : List Text) (c : Text) : Prop :=
  t.node? p = some (.file c) ∨ t.node? p = none ∧ c = []

theorem HoldsText.not_directory (holds : t.HoldsText p c) : t.node? p ≠ some .directory := by
  rcases holds with file | ⟨free, -⟩
  · rw [file]
    exact nofun
  · rw [free]
    exact nofun

/-- Text that is added to what a place holds comes behind it. -/
theorem HoldsText.append_eq (holds : t.HoldsText p c) (way : t.locate path = .ok p) :
    t.append path text = .ok (t.put p (.file (c ++ text.scrub))) := by
  rw [append, way]
  rcases holds with file | ⟨free, rfl⟩
  · simp only [bind, Except.bind, file]
  · simp only [bind, Except.bind, free, List.nil_append]

/-- A file that is written changes no directory. -/
theorem HoldsText.directory_put (holds : t.HoldsText p c) (ne : p ≠ [])
    (directory : t.node? q = some .directory) : (t.put p n).node? q = some .directory := by
  rw [node?_put ne, if_neg]
  · exact directory
  · rintro rfl
    exact holds.not_directory directory

end Texts

end RequestCompiler.FileTree
