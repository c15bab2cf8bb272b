import RequestCompiler.Text

/-!
# The lines of a text

`Broken s ls` says that `ls` are the lines of `s`: a line holds no line feed, and it ends at the
end of the text, at a line feed or at carriage return and line feed, the longer line end being
taken where both fit. `lines_eq_iff` shows that `lines` answers exactly these, and
`broken_join` that lines written one after another are read back.
-/

namespace RequestCompiler.Text

/-- The text is broken into the lines. -/
inductive Broken : Text → List Text → Prop
  | last {l : Text} (whole : unit '\n' ∉ l) : Broken l [l]
  | feed {l t : Text} {ls : List Text} (whole : unit '\n' ∉ l)
      (noReturn : l.getLast? ≠ some (unit '\r')) (rest : Broken t ls) :
      Broken (l ++ unit '\n' :: t) (l :: ls)
  | returnFeed {l t : Text} {ls : List Text} (whole : unit '\n' ∉ l) (rest : Broken t ls) :
      Broken (l ++ unit '\r' :: unit '\n' :: t) (l :: ls)

theorem return_ne_feed : unit '\r' ≠ unit '\n' := by decide

theorem lines_feed (t : Text) : lines (unit '\n' :: t) = [] :: lines t := by
  cases t <;> simp [lines]

theorem lines_returnFeed (t : Text) :
    lines (unit '\r' :: unit '\n' :: t) = [] :: lines t := by
  simp [lines, return_ne_feed]

/-- A unit that starts no line end belongs to the line of what follows. -/
theorem lines_cons {u : UInt16} {t : Text} (feed : u ≠ unit '\n')
    (noEnd : u = unit '\r' → t.head? ≠ some (unit '\n')) :
    lines (u :: t) = consFirst u (lines t) := by
  cases t with
  | nil => simp [lines, feed, consFirst]
  | cons v r =>
    have pair : ¬(u = unit '\r' ∧ v = unit '\n') := fun h => noEnd h.1 (by simp [h.2])
    rw [lines, if_neg feed, if_neg pair]

/-- A whole line in front of a text whose lines are known, the first one empty. -/
theorem lines_append {l t : Text} {ls : List Text} (whole : unit '\n' ∉ l)
    (noEnd : l.getLast? = some (unit '\r') → t.head? ≠ some (unit '\n'))
    (rest : lines t = [] :: ls) : lines (l ++ t) = l :: ls := by
  induction l with
  | nil => exact rest
  | cons u l ih =>
    have feed : u ≠ unit '\n' := fun h => whole (by simp [h])
    have tail : unit '\n' ∉ l := fun h => whole (List.mem_cons_of_mem u h)
    have next : u = unit '\r' → (l ++ t).head? ≠ some (unit '\n') := by
      rintro rfl
      cases l with
      | nil => exact noEnd rfl
      | cons v l => simpa [eq_comm] using fun h => tail (by simp [h])
    have last : l.getLast? = some (unit '\r') → t.head? ≠ some (unit '\n') := fun h =>
      noEnd (by simp [List.getLast?_cons, h])
    rw [List.cons_append, lines_cons feed next, ih tail last]
    rfl

theorem Broken.lines {s : Text} {ls : List Text} (h : Broken s ls) : lines s = ls := by
  induction h with
  | @last l whole =>
    simpa using lines_append (t := []) whole (by simp) rfl
  | @feed l t ls whole noReturn _ ih =>
    exact lines_append whole (fun h => absurd h noReturn) (by rw [lines_feed, ih])
  | @returnFeed l t ls whole _ ih =>
    exact lines_append whole (fun _ => by simp [return_ne_feed]) (by rw [lines_returnFeed, ih])

/-- A unit that starts no line end extends the first line. -/
theorem Broken.consFirst {u : UInt16} {t : Text} {ls : List Text} (h : Broken t ls)
    (feed : u ≠ unit '\n') (noEnd : u = unit '\r' → t.head? ≠ some (unit '\n')) :
    Broken (u :: t) (consFirst u ls) := by
  have extend : ∀ {l : Text}, unit '\n' ∉ l → unit '\n' ∉ u :: l := fun whole => by
    simpa [Ne.symm feed] using whole
  cases h with
  | last whole => exact .last (extend whole)
  | @feed l t ls whole noReturn rest =>
    refine .feed (extend whole) ?_ rest
    cases l with
    | nil => simpa using fun h => noEnd h rfl
    | cons v l => simpa [List.getLast?_cons] using noReturn
  | returnFeed whole rest => exact .returnFeed (extend whole) rest

/-- The lines of a text break it. -/
theorem broken_lines (s : Text) : Broken s (lines s) := by
  fun_induction lines s with
  | case1 => exact .last (by simp)
  | case2 => exact .feed (l := []) (by simp) (by simp) (.last (by simp))
  | case3 u h => exact .last (by simpa [eq_comm] using h)
  | case4 v r ih => exact .feed (l := []) (by simp) (by simp) ih
  | case5 u v r _ h ih =>
    obtain ⟨rfl, rfl⟩ := h
    exact .returnFeed (l := []) (by simp) ih
  | case6 u v r feed pair ih =>
    exact ih.consFirst feed fun h => by simpa using fun hv => pair ⟨h, hv⟩

theorem lines_eq_iff {s : Text} {ls : List Text} : lines s = ls ↔ Broken s ls :=
  ⟨fun h => h ▸ broken_lines s, Broken.lines⟩

/-- Lines without line ends, joined by line feeds, are the lines of what results. -/
theorem broken_join {line : Text} {ls : List Text}
    (h : ∀ l ∈ line :: ls, unit '\n' ∉ l ∧ l.getLast? ≠ some (unit '\r')) :
    Broken (join [unit '\n'] (line :: ls)) (line :: ls) := by
  induction ls generalizing line with
  | nil => exact .last (h line (by simp)).1
  | cons next ls ih =>
    have rest := ih fun l hl => h l (List.mem_cons_of_mem line hl)
    have first := h line (by simp)
    simpa [join] using Broken.feed first.1 first.2 rest

end RequestCompiler.Text
