import RequestCompiler.Text

/-!
# The pieces of a text

`splitAt` cuts a text at every occurrence of one unit and `join` puts pieces together again: each
undoes the other (`join_splitAt`, `splitAt_join`). A text that has the unit in the middle has the
pieces of its two sides (`splitAt_append`), and one without it is a single piece.
-/

namespace RequestCompiler.Text

variable {sep u : UInt16} {t : Text} {ps : List Text}

theorem splitAt_sep (t : Text) : splitAt sep (sep :: t) = [] :: splitAt sep t := by
  rw [splitAt, if_pos rfl]

theorem splitAt_cons (ne : u ≠ sep) : splitAt sep (u :: t) = consFirst u (splitAt sep t) := by
  rw [splitAt, if_neg ne]

theorem splitAt_ne_nil (t : Text) : splitAt sep t ≠ [] := by
  induction t with
  | nil => exact List.cons_ne_nil _ _
  | cons u t ih =>
    by_cases same : u = sep
    · rw [same, splitAt_sep]
      exact List.cons_ne_nil _ _
    · rw [splitAt_cons same]
      cases pieces : splitAt sep t with
      | nil => exact absurd pieces ih
      | cons p ps => exact List.cons_ne_nil _ _

/-- A unit in front of several pieces is in front of the first. -/
theorem consFirst_append (ne : ps ≠ []) (qs : List Text) :
    consFirst u (ps ++ qs) = consFirst u ps ++ qs := by
  cases ps with
  | nil => exact absurd rfl ne
  | cons p ps => rfl

theorem splitAt_of_not_mem (whole : sep ∉ t) : splitAt sep t = [t] := by
  induction t with
  | nil => rfl
  | cons u t ih =>
    rw [List.mem_cons, not_or] at whole
    rw [splitAt_cons (Ne.symm whole.1), ih whole.2]
    rfl

theorem splitAt_append (a t : Text) :
    splitAt sep (a ++ sep :: t) = splitAt sep a ++ splitAt sep t := by
  induction a with
  | nil => exact splitAt_sep t
  | cons u a ih =>
    by_cases same : u = sep
    · rw [List.cons_append, same, splitAt_sep, ih, splitAt_sep]
      rfl
    · rw [List.cons_append, splitAt_cons same, splitAt_cons same, ih,
        consFirst_append (splitAt_ne_nil a)]

theorem not_mem_of_mem_splitAt {p : Text} (member : p ∈ splitAt sep t) : sep ∉ p := by
  induction t generalizing p with
  | nil =>
    obtain rfl := List.mem_singleton.1 member
    exact List.not_mem_nil
  | cons u t ih =>
    by_cases same : u = sep
    · rw [same, splitAt_sep, List.mem_cons] at member
      rcases member with rfl | member
      · exact List.not_mem_nil
      · exact ih member
    · rw [splitAt_cons same] at member
      cases pieces : splitAt sep t with
      | nil => exact absurd pieces (splitAt_ne_nil t)
      | cons q qs =>
        rw [pieces] at ih member
        rcases List.mem_cons.1 member with rfl | member
        · have whole := ih List.mem_cons_self
          rw [List.mem_cons, not_or]
          exact ⟨Ne.symm same, whole⟩
        · exact ih (List.mem_cons_of_mem _ member)

theorem join_cons (ne : ps ≠ []) (p : Text) : join [sep] (p :: ps) = p ++ sep :: join [sep] ps := by
  cases ps with
  | nil => exact absurd rfl ne
  | cons q ps => rw [join, List.append_assoc, List.singleton_append]

/-- Joined pieces start with the first of them. -/
theorem exists_join_eq_append (sep : UInt16) (p : Text) (ps : List Text) :
    ∃ r, join [sep] (p :: ps) = p ++ r := by
  by_cases last : ps = []
  · exact ⟨[], by rw [last, List.append_nil, join]⟩
  · exact ⟨_, join_cons last p⟩

theorem join_append {qs : List Text} (ne : ps ≠ []) (ne' : qs ≠ []) :
    join [sep] (ps ++ qs) = join [sep] ps ++ sep :: join [sep] qs := by
  induction ps with
  | nil => exact absurd rfl ne
  | cons p ps ih =>
    by_cases last : ps = []
    · subst last
      exact join_cons ne' p
    · rw [List.cons_append, join_cons (by simp [last]), join_cons last, ih last, List.append_assoc,
        List.cons_append]

theorem mem_join {u : UInt16} (member : u ∈ join [sep] ps) : u = sep ∨ ∃ p ∈ ps, u ∈ p := by
  induction ps with
  | nil => exact absurd member List.not_mem_nil
  | cons p ps ih =>
    by_cases last : ps = []
    · subst last
      exact .inr ⟨p, List.mem_cons_self, member⟩
    · rw [join_cons last, List.mem_append, List.mem_cons] at member
      rcases member with own | same | rest
      · exact .inr ⟨p, List.mem_cons_self, own⟩
      · exact .inl same
      · rcases ih rest with same | ⟨q, other, inside⟩
        · exact .inl same
        · exact .inr ⟨q, List.mem_cons_of_mem _ other, inside⟩

theorem splitAt_join (ne : ps ≠ []) (whole : ∀ p ∈ ps, sep ∉ p) :
    splitAt sep (join [sep] ps) = ps := by
  induction ps with
  | nil => exact absurd rfl ne
  | cons p ps ih =>
    rw [List.forall_mem_cons] at whole
    by_cases last : ps = []
    · subst last
      exact splitAt_of_not_mem whole.1
    · rw [join_cons last, splitAt_append, splitAt_of_not_mem whole.1, ih last whole.2]
      rfl

theorem join_splitAt (sep : UInt16) (t : Text) : join [sep] (splitAt sep t) = t := by
  induction t with
  | nil => rfl
  | cons u t ih =>
    by_cases same : u = sep
    · rw [same, splitAt_sep, join_cons (splitAt_ne_nil t), ih]
      rfl
    · rw [splitAt_cons same]
      cases pieces : splitAt sep t with
      | nil => exact absurd pieces (splitAt_ne_nil t)
      | cons p ps =>
        rw [pieces] at ih
        cases ps with
        | nil => exact congrArg (u :: ·) ih
        | cons q ps => exact congrArg (u :: ·) ih

/-- Text without the separator goes on with the last piece. -/
theorem splitAt_append_whole {a b p : Text} (pieces : splitAt sep a = ps ++ [p]) (whole : sep ∉ b) :
    splitAt sep (a ++ b) = ps ++ [p ++ b] := by
  have inside : sep ∉ p := not_mem_of_mem_splitAt (t := a) (by simp [pieces])
  have together : sep ∉ p ++ b := fun member => (List.mem_append.1 member).elim inside whole
  by_cases single : ps = []
  · rw [← join_splitAt sep a, pieces, single]
    exact splitAt_of_not_mem together
  · have first : splitAt sep (join [sep] ps) = ps :=
      splitAt_join single fun q member => not_mem_of_mem_splitAt (t := a) (by simp [pieces, member])
    rw [← join_splitAt sep a, pieces, join_append single (by simp), List.append_assoc,
      List.cons_append, splitAt_append, first]
    exact congrArg (ps ++ ·) (splitAt_of_not_mem together)

end RequestCompiler.Text
