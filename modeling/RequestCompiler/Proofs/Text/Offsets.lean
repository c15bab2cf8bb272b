import RequestCompiler.Proofs.Text.Words

/-!
# Where the words of a text stand

`WordAt t start w` says that `w` is a word of `t` and starts behind `start` units: a run of units that are no
blanks and that no further such unit touches. Two words that share a unit are the same (`WordAt.unique`).
`Columns t behind ps` lists every word from an offset on, in order and with its column; the list grows by the
word in front of what is listed already (`Columns.cons`).
-/

namespace RequestCompiler.Text

/-- The word stands in the text behind that many units, and nothing but blanks stands next to it. -/
structure WordAt (t : Text) (start : Nat) (w : Text) : Prop where
  solid : isSolid w = true
  here : w <+: t.drop start
  before : ∀ i u, i + 1 = start → t[i]? = some u → isBlank u = true
  after : ∀ u, t[start + w.length]? = some u → isBlank u = true

/-- The words of a text that start at an offset or behind it, each with its column, counted from 1. -/
structure Columns (t : Text) (behind : Nat) (ps : List (Text × Nat)) : Prop where
  ascending : ps.Pairwise fun p p' => p.2 < p'.2
  sound : ∀ p ∈ ps, ∃ start, p.2 = start + 1 ∧ behind ≤ start ∧ WordAt t start p.1
  complete : ∀ start w, WordAt t start w → behind ≤ start → (w, start + 1) ∈ ps

/-- Solid units with blanks next to them on both sides are a word. -/
theorem wordAt_append {front w rest : Text} (solid : isSolid w = true)
    (before : ∀ u ∈ front.getLast?, isBlank u = true) (after : ∀ u ∈ rest.head?, isBlank u = true) :
    WordAt (front ++ (w ++ rest)) front.length w where
  solid := solid
  here := by
    rw [List.drop_left]
    exact List.prefix_append w rest
  before := by
    intro i u last found
    rw [List.getElem?_append_left (by omega)] at found
    refine before u ?_
    rw [Option.mem_def, List.getLast?_eq_getElem?, ← last]
    exact found
  after := by
    intro u found
    rw [← List.append_assoc, ← List.length_append, List.getElem?_append_right (Nat.le_refl _),
      Nat.sub_self, ← List.head?_eq_getElem?] at found
    exact after u found

variable {t w w' : Text} {start start' behind : Nat}

/-- No unit of a word is a blank, and none is missing. -/
theorem WordAt.not_blank (h : WordAt t start w) {i : Nat} (low : start ≤ i) (high : i < start + w.length) :
    ¬∀ u, t[i]? = some u → isBlank u = true := by
  obtain ⟨k, rfl⟩ := Nat.exists_eq_add_of_le low
  obtain ⟨rest, form⟩ := h.here
  have inside : k < w.length := by omega
  have same : t[start + k]? = w[k]? := by
    rw [← List.getElem?_drop, ← form, List.getElem?_append_left inside]
  have solid := (isSolid_iff.1 h.solid).2 _ (List.getElem_mem inside)
  intro blank
  simp [blank _ (same.trans (List.getElem?_eq_getElem inside))] at solid

theorem WordAt.pos (h : WordAt t start w) : 0 < w.length :=
  List.length_pos_iff.2 (isSolid_iff.1 h.solid).1

/-- A word ends where the text stops or a blank follows, so no other word of the same start is longer. -/
theorem WordAt.length_le (h : WordAt t start w) (h' : WordAt t start w') : w'.length ≤ w.length := by
  by_contra longer
  exact h'.not_blank (by omega) (by omega) h.after

/-- A word that starts within a word is that word. -/
theorem WordAt.unique (h : WordAt t start w) (h' : WordAt t start' w') (low : start ≤ start')
    (high : start' < start + w.length) : start' = start ∧ w' = w := by
  have same : start' = start := by
    by_contra later
    exact h.not_blank (i := start' - 1) (by omega) (by omega) fun u => h'.before _ u (by omega)
  subst same
  have lengths : w'.length = w.length := Nat.le_antisymm (h.length_le h') (h'.length_le h)
  exact ⟨rfl, (List.prefix_of_prefix_length_le h'.here h.here (Nat.le_of_eq lengths)).eq_of_length lengths⟩

/-- Blanks hold no word. -/
theorem Columns.nil (blank : ∀ i u, behind ≤ i → t[i]? = some u → isBlank u = true) :
    Columns t behind [] where
  ascending := .nil
  sound := nofun
  complete := by
    intro start w h low
    exact absurd (fun u => blank start u low) (h.not_blank (Nat.le_refl _) (Nat.lt_add_of_pos_right h.pos))

/-- A word behind blanks, and the words behind it. -/
theorem Columns.cons {ps : List (Text × Nat)} (rest : Columns t (start + w.length) ps)
    (word : WordAt t start w) (low : behind ≤ start)
    (blank : ∀ i u, behind ≤ i → i < start → t[i]? = some u → isBlank u = true) :
    Columns t behind ((w, start + 1) :: ps) where
  ascending := by
    refine .cons (fun p member => ?_) rest.ascending
    obtain ⟨start', column, later, -⟩ := rest.sound p member
    have pos := word.pos
    show start + 1 < p.2
    omega
  sound := by
    intro p member
    rcases List.mem_cons.1 member with rfl | member
    · exact ⟨start, rfl, low, word⟩
    · obtain ⟨start', column, later, word'⟩ := rest.sound p member
      exact ⟨start', column, by omega, word'⟩
  complete := by
    intro start' w' word' low'
    rcases Nat.lt_or_ge start' start with earlier | inside
    · have solid := word'.not_blank (Nat.le_refl _) (Nat.lt_add_of_pos_right word'.pos)
      exact absurd (fun u => blank start' u low' earlier) solid
    · rcases Nat.lt_or_ge start' (start + w.length) with touching | later
      · obtain ⟨rfl, rfl⟩ := word.unique word' inside touching
        exact List.mem_cons_self
      · exact List.mem_cons_of_mem _ (rest.complete start' w' word' later)

end RequestCompiler.Text
