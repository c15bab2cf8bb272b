import RequestCompiler.Files.Path
import RequestCompiler.Proofs.Text.Encodable

/-!
# Settled paths

The segments that are left of a path are `Settled`: pushed one after the other, each of them stays.
They are steps above the start followed by names, and no steps above the start for a path from the
root (`Settled.eq_append_replicate`). So a joined path keeps its segments (`segments_ofSegments`), and
names can be joined to it one by one or together (`join_join`). The encodable form of a path is the path
of its encoded segments (`scrub_ofSegments`), and they are settled too.
-/

namespace RequestCompiler.Path

/-- A segment that leads below every directory. -/
structure IsName (s : Text) : Prop where
  ne_nil : s ≠ []
  ne_here : s ≠ here
  ne_above : s ≠ above
  whole : separator ∉ s

variable {rooted : Bool} {before : List Text} {s n m : Text}

/-- A segment stands for the directory itself, for the one above, or is a name. -/
theorem segment_cases (whole : separator ∉ s) : (s = [] ∨ s = here) ∨ s = above ∨ IsName s := by
  by_cases idle : s = [] ∨ s = here
  · exact .inl idle
  by_cases up : s = above
  · exact .inr (.inl up)
  · rw [not_or] at idle
    exact .inr (.inr ⟨idle.1, idle.2, up, whole⟩)

theorem push_idle (idle : s = [] ∨ s = here) : push rooted before s = before := by
  rcases idle with rfl | rfl <;> rfl

theorem push_name (name : IsName s) : push rooted before s = s :: before := by
  simp [push, name.ne_nil, name.ne_here, name.ne_above]

theorem foldl_names {names : List Text} (each : ∀ s ∈ names, IsName s) :
    names.foldl (push rooted) before = names.reverse ++ before := by
  induction names generalizing before with
  | nil => rfl
  | cons s names ih =>
    rw [List.forall_mem_cons] at each
    rw [List.foldl_cons, push_name each.1, ih each.2, List.reverse_cons, List.append_assoc]
    rfl

theorem push_above_nil : push rooted [] above = if rooted then [] else [above] := rfl

theorem push_above_above : push rooted (above :: before) above = above :: above :: before := rfl

theorem push_above_name (name : IsName s) : push rooted (s :: before) above = before := by
  have solid : ¬(above.isEmpty || above == here) = true := by decide
  have other : ¬(s == above) = true := by simpa using name.ne_above
  rw [push.eq_def, if_neg solid, if_pos (by decide)]
  exact if_neg other

/-- Segments, the last one first, of which each stays when it is pushed onto those before it. -/
inductive Settled (rooted : Bool) : List Text → Prop
  | nil : Settled rooted []
  | push {before : List Text} {s : Text} (settled : Settled rooted before) (whole : separator ∉ s)
      (stays : push rooted before s = s :: before) : Settled rooted (s :: before)

namespace Settled

theorem name (settled : Settled rooted before) (name : IsName s) : Settled rooted (s :: before) :=
  .push settled name.whole (push_name name)

theorem whole (settled : Settled rooted before) : ∀ s ∈ before, separator ∉ s := by
  induction settled with
  | nil => exact nofun
  | push _ whole _ ih =>
    rw [List.forall_mem_cons]
    exact ⟨whole, ih⟩

/-- The segment before a step above the start is such a step too, or a name. -/
theorem eq_above_or_isName (settled : Settled rooted (s :: before)) : s = above ∨ IsName s := by
  cases settled with
  | push _ whole stays =>
    rcases segment_cases whole with idle | other
    · rw [push_idle idle] at stays
      exact absurd stays.symm (List.cons_ne_self _ _)
    · exact other

theorem pushed (settled : Settled rooted before) (whole : separator ∉ s) :
    Settled rooted (Path.push rooted before s) := by
  rcases segment_cases whole with idle | rfl | name
  · rwa [push_idle idle]
  · cases before with
    | nil =>
      rw [push_above_nil]
      cases rooted with
      | true => exact .nil
      | false => exact .push .nil whole rfl
    | cons last r =>
      rcases settled.eq_above_or_isName with rfl | name
      · exact .push settled whole push_above_above
      · rw [push_above_name name]
        cases settled with
        | push settled _ _ => exact settled
  · rw [push_name name]
    exact settled.name name

theorem foldl (settled : Settled rooted before) {ss : List Text} (whole : ∀ s ∈ ss, separator ∉ s) :
    Settled rooted (ss.foldl (Path.push rooted) before) := by
  induction ss generalizing before with
  | nil => exact settled
  | cons s ss ih =>
    rw [List.forall_mem_cons] at whole
    exact ih (settled.pushed whole.1) whole.2

/-- Settled segments are what is left of them. -/
theorem foldl_reverse (settled : Settled rooted before) :
    before.reverse.foldl (Path.push rooted) [] = before := by
  induction settled with
  | nil => rfl
  | push _ _ stays ih =>
    rw [List.reverse_cons, List.foldl_append, ih]
    exact stays

/-- Settled segments are names below steps above the start, and the root is not stepped above. -/
theorem eq_append_replicate (settled : Settled rooted before) :
    ∃ names k, before = names ++ List.replicate k above ∧ (∀ s ∈ names, IsName s) ∧
      (rooted = true → k = 0) := by
  induction settled with
  | nil => exact ⟨[], 0, rfl, nofun, fun _ => rfl⟩
  | @push before s settled whole stays ih =>
    obtain ⟨names, k, rfl, each, bottom⟩ := ih
    rcases (settled.push whole stays).eq_above_or_isName with rfl | name
    · cases names with
      | nil =>
        refine ⟨[], k + 1, rfl, nofun, fun root => ?_⟩
        obtain rfl := bottom root
        subst root
        cases stays
      | cons last names =>
        rw [List.cons_append, push_above_name (each last List.mem_cons_self)] at stays
        have longer := congrArg List.length stays
        simp only [List.length_cons] at longer
        omega
    · exact ⟨s :: names, k, rfl, List.forall_mem_cons.2 ⟨name, each⟩, bottom⟩

theorem ne_nil_of_mem (settled : Settled rooted before) : ∀ s ∈ before, s ≠ [] := by
  obtain ⟨names, k, rfl, each, -⟩ := settled.eq_append_replicate
  intro s member
  rcases List.mem_append.1 member with name | step
  · exact (each s name).ne_nil
  · rw [List.eq_of_mem_replicate step]
    decide

end Settled

section Segments

variable {ss : List Text}

theorem segments_eq (t : Text) :
    segments rooted t = ((t.splitAt separator).foldl (push rooted) []).reverse := rfl

theorem settled_segments (t : Text) : Settled rooted (segments rooted t).reverse := by
  rw [segments_eq, List.reverse_reverse]
  exact .foldl .nil fun _ => Text.not_mem_of_mem_splitAt

theorem segments_append_name (t : Text) (name : IsName n) :
    segments rooted (t ++ separator :: n) = segments rooted t ++ [n] := by
  rw [segments, Text.splitAt_append, List.foldl_append, Text.splitAt_of_not_mem name.whole,
    List.foldl_cons, List.foldl_nil, push_name name, List.reverse_cons]
  rfl

theorem segments_name (name : IsName n) : segments rooted n = [n] := by
  rw [segments, Text.splitAt_of_not_mem name.whole, List.foldl_cons, List.foldl_nil, push_name name]
  rfl

/-- The path of segments. -/
def ofSegments (rooted : Bool) (ss : List Text) : Text :=
  (if rooted then [separator] else []) ++ Text.join [separator] ss

theorem ofSegments_append_name (ne : ss ≠ []) (n : Text) :
    ofSegments rooted (ss ++ [n]) = ofSegments rooted ss ++ separator :: n := by
  rw [ofSegments, Text.join_append ne (by simp), ofSegments, List.append_assoc]
  rfl

/-- The pieces of the path of segments are the segments, behind an empty one for the root. -/
theorem splitAt_ofSegments (settled : Settled rooted ss.reverse) (ne : ss ≠ []) :
    (ofSegments rooted ss).splitAt separator = (if rooted then [[]] else []) ++ ss := by
  have own : (Text.join [separator] ss).splitAt separator = ss :=
    Text.splitAt_join ne fun s member => settled.whole s (List.mem_reverse.2 member)
  cases rooted with
  | true => exact (Text.splitAt_sep _).trans (congrArg ([] :: ·) own)
  | false => exact own

theorem segments_ofSegments (settled : Settled rooted ss.reverse) (ne : ss ≠ []) :
    segments rooted (ofSegments rooted ss) = ss := by
  have same : ∀ ps, ((if rooted then [[]] else []) ++ ps).foldl (push rooted) [] =
      ps.foldl (push rooted) [] := by
    intro ps
    cases rooted <;> rfl
  have left := settled.foldl_reverse
  rw [List.reverse_reverse] at left
  rw [segments, splitAt_ofSegments settled ne, same, left, List.reverse_reverse]

theorem isAbsolute_ofSegments (settled : Settled rooted ss.reverse) (ne : ss ≠ []) :
    isAbsolute (ofSegments rooted ss) = rooted := by
  cases rooted with
  | true => rfl
  | false =>
    obtain ⟨s, ss, rfl⟩ := List.exists_cons_of_ne_nil ne
    have member : s ∈ (s :: ss).reverse := by simp
    obtain ⟨u, t, rfl⟩ := List.exists_cons_of_ne_nil (settled.ne_nil_of_mem s member)
    obtain ⟨r, joined⟩ := Text.exists_join_eq_append separator (u :: t) ss
    have other : u ≠ separator := fun same =>
      settled.whole _ member (same ▸ List.mem_cons_self)
    rw [ofSegments, joined]
    simpa [isAbsolute] using other

end Segments

section Joining

theorem isAbsolute_append {t : Text} (ne : t ≠ []) (r : Text) : isAbsolute (t ++ r) = isAbsolute t := by
  obtain ⟨u, t, rfl⟩ := List.exists_cons_of_ne_nil ne
  rfl

theorem isAbsolute_name (name : IsName n) : isAbsolute n = false := by
  obtain ⟨u, t, rfl⟩ := List.exists_cons_of_ne_nil name.ne_nil
  have other : u ≠ separator := fun same => name.whole (same ▸ List.mem_cons_self)
  simpa [isAbsolute] using other

/-- A path that ends with a name is normalized to the path of its segments. -/
theorem normalize_eq {t : Text} {ss : List Text} (name : IsName n)
    (left : segments (isAbsolute t) t = ss ++ [n]) (last : t.getLast? ≠ some separator) :
    normalize t = ofSegments (isAbsolute t) (ss ++ [n]) := by
  have solid : Text.join [separator] (ss ++ [n]) ≠ [] := by
    by_cases single : ss = []
    · rw [single]
      exact name.ne_nil
    · rw [Text.join_append single (by simp)]
      simp
  have open_ : (t.getLast? == some separator) = false := by simpa using last
  simp [normalize, left, open_, solid, ofSegments]

theorem getLast?_append_name (t : Text) (name : IsName n) :
    (t ++ separator :: n).getLast? ≠ some separator := by
  intro last
  have own : (t ++ separator :: n).getLast? = n.getLast? := by
    rw [List.getLast?_append, List.getLast?_cons_of_ne_nil name.ne_nil]
    simp [List.getLast?_eq_some_getLast name.ne_nil]
  exact name.whole (List.mem_of_getLast? (own.symm.trans last))

theorem normalize_append_name {t : Text} (ne : t ≠ []) (name : IsName n) :
    normalize (t ++ separator :: n) = ofSegments (isAbsolute t) (segments (isAbsolute t) t ++ [n]) := by
  have same : isAbsolute (t ++ separator :: n) = isAbsolute t := isAbsolute_append ne _
  rw [normalize_eq name (segments_append_name t name) (getLast?_append_name t name), same]

theorem normalize_name (name : IsName n) : normalize n = n := by
  have open_ : n.getLast? ≠ some separator := fun last => name.whole (List.mem_of_getLast? last)
  have left : segments (isAbsolute n) n = [] ++ [n] := segments_name name
  rw [normalize_eq name left open_, isAbsolute_name name]
  rfl

/-- A name joined to a path comes behind the path's segments. -/
theorem join_name (t : Text) (name : IsName n) :
    join [t, n] = ofSegments (isAbsolute t) (segments (isAbsolute t) t ++ [n]) := by
  have solid : n ≠ [] := name.ne_nil
  by_cases empty : t = []
  · have alone : join [t, n] = normalize n := by simp [join, empty, solid, Text.join]
    rw [alone, normalize_name name, empty]
    rfl
  · have both : join [t, n] = normalize (t ++ separator :: n) := by
      simp [join, empty, solid, Text.join]
    rw [both, normalize_append_name empty name]

theorem join_name_name (t : Text) (name : IsName n) (name' : IsName m) :
    join [t, n, m] = ofSegments (isAbsolute t) (segments (isAbsolute t) t ++ [n, m]) := by
  have solid : n ≠ [] := name.ne_nil
  have solid' : m ≠ [] := name'.ne_nil
  by_cases empty : t = []
  · have two : join [t, n, m] = join [n, m] := by simp [join, empty]
    rw [two, join_name n name', isAbsolute_name name, segments_name name, empty]
    rfl
  · have all : join [t, n, m] = normalize ((t ++ separator :: n) ++ separator :: m) := by
      simp [join, empty, solid, solid', Text.join]
    rw [all, normalize_append_name (by simp) name', isAbsolute_append empty,
      segments_append_name t name, List.append_assoc]
    rfl

/-- What is joined to a path is a path below it. -/
theorem join_join (t : Text) (name : IsName n) (name' : IsName m) :
    join [join [t, n], m] = join [t, n] ++ separator :: m ∧
      join [t, n, m] = join [t, n] ++ separator :: m := by
  have settled : Settled (isAbsolute t) (segments (isAbsolute t) t ++ [n]).reverse := by
    rw [List.reverse_append]
    exact .name (settled_segments t) name
  have ne : segments (isAbsolute t) t ++ [n] ≠ [] := by simp
  rw [join_name_name t name name', join_name t name, join_name _ name',
    isAbsolute_ofSegments settled ne, segments_ofSegments settled ne, ofSegments_append_name ne]
  refine ⟨rfl, ?_⟩
  rw [← ofSegments_append_name ne, List.append_assoc]
  rfl

end Joining

section Encoding

theorem IsName.scrub (name : IsName s) : IsName s.scrub where
  ne_nil empty := name.ne_nil (Text.eq_of_scrub_eq List.not_mem_nil empty)
  ne_here same := name.ne_here (Text.eq_of_scrub_eq (by decide) same)
  ne_above same := name.ne_above (Text.eq_of_scrub_eq (by decide) same)
  whole member := (Text.eq_or_mem_of_mem_scrub member).elim (by decide) name.whole

/-- Encoding changes names alone, and they stay names. -/
theorem Settled.scrub (settled : Settled rooted before) : Settled rooted (before.map Text.scrub) := by
  induction settled with
  | nil => exact .nil
  | @push before s settled whole stays ih =>
    rcases (settled.push whole stays).eq_above_or_isName with rfl | name
    · cases before with
      | nil => exact .push ih whole stays
      | cons last r =>
        rcases settled.eq_above_or_isName with rfl | name
        · exact .push ih whole push_above_above
        · rw [push_above_name name] at stays
          have longer := congrArg List.length stays
          simp only [List.length_cons] at longer
          omega
    · exact ih.name name.scrub

theorem scrub_ofSegments (rooted : Bool) (ss : List Text) :
    (ofSegments rooted ss).scrub = ofSegments rooted (ss.map Text.scrub) := by
  have high : Text.isHigh separator = false := by decide
  have low : Text.isLow separator = false := by decide
  cases rooted with
  | true =>
    have split := Text.scrub_append_cons high low [] (Text.join [separator] ss)
    rw [Text.scrub_join high low] at split
    exact split
  | false => exact Text.scrub_join high low ss

end Encoding

end RequestCompiler.Path
