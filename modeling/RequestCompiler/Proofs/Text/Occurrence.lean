import RequestCompiler.Text

/-!
# Texts within texts

The search for a text within another finds it exactly if the other one is that text with something before
and behind it (`contains_iff`).
-/

namespace RequestCompiler.Text

theorem contains_iff {needle t : Text} : contains needle t = true ↔ needle <:+: t := by
  induction t with
  | nil => rw [contains, List.isEmpty_iff, List.infix_nil]
  | cons u t ih => rw [contains, Bool.or_eq_true, List.isPrefixOf_iff_prefix, ih, List.infix_cons_iff]

variable {k s : Text} {u : UInt16}

/-- Within one unit more than its own length, a text stands at the start or behind that unit. -/
theorem eq_or_head_of_infix (length : s.length = k.length) (occurs : k <:+: u :: s) :
    s = k ∨ k.head? = some u := by
  rcases List.infix_cons_iff.1 occurs with first | rest
  · cases k with
    | nil => exact .inl (List.length_eq_zero_iff.1 length)
    | cons v k =>
      obtain ⟨rfl, -⟩ := List.cons_prefix_cons.1 first
      exact .inr rfl
  · exact .inl (rest.eq_of_length length.symm).symm

theorem eq_or_getLast_of_infix (length : s.length = k.length) (occurs : k <:+: s ++ [u]) :
    s = k ∨ k.getLast? = some u := by
  have turned : k.reverse <:+: u :: s.reverse := by
    rw [← List.reverse_infix] at occurs
    simpa using occurs
  rcases eq_or_head_of_infix (by simpa using length) turned with same | last
  · exact .inl (List.reverse_inj.1 same)
  · exact .inr (by rwa [List.head?_reverse] at last)

end RequestCompiler.Text
