import Mathlib.Data.List.Forall2

/-!
# Computations that answer or fail

When a composed computation answers, and what the answers of its parts are then.
-/

namespace RequestCompiler

section

variable {ε ε' α β : Type}

theorem bind_eq_ok_iff {x : Except ε α} {f : α → Except ε β} {b : β} :
    (x >>= f) = .ok b ↔ ∃ a, x = .ok a ∧ f a = .ok b := by
  cases x with
  | error e => simp [bind, Except.bind]
  | ok a => simp [bind, Except.bind]

theorem map_eq_ok_iff {x : Except ε α} {f : α → β} {b : β} :
    x.map f = .ok b ↔ ∃ a, x = .ok a ∧ f a = b := by
  cases x with
  | error e => simp [Except.map]
  | ok a => simp [Except.map]

theorem map_eq_error_iff {x : Except ε α} {f : α → β} {e : ε} :
    x.map f = .error e ↔ x = .error e := by
  cases x with
  | error e' => simp [Except.map]
  | ok a => simp [Except.map]

theorem mapError_eq_ok_iff {x : Except ε α} {f : ε → ε'} {a : α} :
    x.mapError f = .ok a ↔ x = .ok a := by
  cases x with
  | error e => simp [Except.mapError]
  | ok a => simp [Except.mapError]

/-- A traversal succeeds exactly if every element does, with the list of their answers. -/
theorem mapM_eq_ok_iff {f : α → Except ε β} {as : List α} {bs : List β} :
    as.mapM f = .ok bs ↔ List.Forall₂ (fun a b => f a = .ok b) as bs := by
  induction as generalizing bs with
  | nil =>
    rw [List.forall₂_nil_left_iff]
    exact ⟨fun h => (Except.ok.inj h).symm, fun h => h ▸ rfl⟩
  | cons a as ih =>
    rw [List.mapM_cons, List.forall₂_cons_left_iff]
    cases first : f a with
    | error e => simp [bind, Except.bind]
    | ok b =>
      cases rest : as.mapM f with
      | error e => simp [bind, Except.bind, ← ih, rest]
      | ok bs' => simp [bind, Except.bind, pure, Except.pure, ← ih, rest, eq_comm]

/-- A traversal fails with the error of its first element that does. -/
theorem mapM_eq_error_iff {f : α → Except ε β} {as : List α} {e : ε} :
    as.mapM f = .error e ↔ ∃ before a after, as = before ++ a :: after ∧
      (∀ x ∈ before, ∃ b, f x = .ok b) ∧ f a = .error e := by
  induction as with
  | nil =>
    refine iff_of_false nofun ?_
    rintro ⟨before, a, after, split, -⟩
    simp at split
  | cons a as ih =>
    simp only [List.mapM_cons, List.cons_eq_append_iff]
    cases first : f a with
    | error e' =>
      constructor
      · intro failed
        obtain rfl := Except.error.inj failed
        exact ⟨[], a, as, .inl ⟨rfl, rfl⟩, nofun, first⟩
      · rintro ⟨before, a', after, ⟨rfl, same⟩ | ⟨before, rfl, -⟩, answered, failed⟩
        · obtain ⟨rfl, rfl⟩ := List.cons.inj same
          obtain rfl := Except.error.inj (first.symm.trans failed)
          rfl
        · obtain ⟨b, answer⟩ := answered a List.mem_cons_self
          exact nomatch first.symm.trans answer
    | ok b =>
      have rest : (do let bs ← as.mapM f; pure (b :: bs)) = .error e ↔ as.mapM f = .error e := by
        cases as.mapM f <;> simp [bind, Except.bind, pure, Except.pure]
      refine rest.trans (ih.trans ?_)
      constructor
      · rintro ⟨before, a', after, rfl, answered, failed⟩
        exact ⟨a :: before, a', after, .inr ⟨before, rfl, rfl⟩,
          List.forall_mem_cons.2 ⟨⟨b, first⟩, answered⟩, failed⟩
      · rintro ⟨before, a', after, ⟨rfl, same⟩ | ⟨before, rfl, rfl⟩, answered, failed⟩
        · obtain ⟨rfl, rfl⟩ := List.cons.inj same
          exact nomatch first.symm.trans failed
        · exact ⟨before, a', after, rfl, (List.forall_mem_cons.1 answered).2, failed⟩

/-- Results are these answers if none of them is an error and these are what they answer. -/
theorem eq_map_ok_iff {results : List (Except ε α)} {as : List α} :
    results = as.map .ok ↔
      (∀ r ∈ results, ∃ a, r = .ok a) ∧ results.filterMap Except.toOption = as := by
  induction results generalizing as with
  | nil => cases as <;> simp
  | cons r rs ih =>
    cases r with
    | error e => cases as <;> simp
    | ok a => cases as <;> simp [Except.toOption, ih, and_left_comm]

end

end RequestCompiler
