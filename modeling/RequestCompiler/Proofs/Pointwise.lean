import Mathlib.Data.List.Forall2

/-!
# Lists that are related element by element

What `List.Forall₂` says of the elements of one list about those of the other.
-/

namespace RequestCompiler.Pointwise

variable {α β γ κ : Type} {R : α → β → Prop} {as : List α} {bs : List β}

/-- Each element of the second list has a partner in the first. -/
theorem exists_left (related : List.Forall₂ R as bs) : ∀ b ∈ bs, ∃ a ∈ as, R a b := by
  induction related with
  | nil => nofun
  | cons first _ ih =>
    refine List.forall_mem_cons.2 ⟨⟨_, List.mem_cons_self, first⟩, fun b member => ?_⟩
    obtain ⟨a, partner, own⟩ := ih b member
    exact ⟨a, List.mem_cons_of_mem _ partner, own⟩

/-- Partners have the same keys. -/
theorem map_eq_map {f : α → κ} {g : β → κ} (related : List.Forall₂ R as bs)
    (own : ∀ a b, R a b → f a = g b) : as.map f = bs.map g := by
  rw [← List.forall₂_eq_eq_eq, List.forall₂_map_left_iff, List.forall₂_map_right_iff]
  exact related.imp own

/-- Elements are related otherwise if that follows for those of the second list. -/
theorem imp_of_mem {S : α → β → Prop} (related : List.Forall₂ R as bs)
    (imp : ∀ b ∈ bs, ∀ a, R a b → S a b) : List.Forall₂ S as bs := by
  induction related with
  | nil => exact .nil
  | cons first _ ih =>
    rw [List.forall_mem_cons] at imp
    exact .cons (imp.1 _ first) (ih imp.2)

theorem comp {S : β → γ → Prop} {T : α → γ → Prop} {cs : List γ}
    (trans : ∀ a b c, R a b → S b c → T a c) (h : List.Forall₂ R as bs) (h' : List.Forall₂ S bs cs) :
    List.Forall₂ T as cs := by
  induction h generalizing cs with
  | nil =>
    cases h'
    exact .nil
  | cons first _ ih =>
    cases h' with
    | cons second rest => exact .cons (trans _ _ _ first second) (ih rest)

/-- If each of two partners of an element has a partner that completes the square, so have the two
lists. -/
theorem exists_square {δ : Type} {S : α → γ → Prop} {T : γ → δ → Prop} {U : β → δ → Prop} {cs : List γ}
    (h : List.Forall₂ R as bs) (h' : List.Forall₂ S as cs)
    (each : ∀ a b c, R a b → S a c → ∃ d, T c d ∧ U b d) :
    ∃ ds, List.Forall₂ T cs ds ∧ List.Forall₂ U bs ds := by
  induction h generalizing cs with
  | nil =>
    cases h'
    exact ⟨[], .nil, .nil⟩
  | cons first _ ih =>
    cases h' with
    | cons second rest =>
      obtain ⟨d, right, left⟩ := each _ _ _ first second
      obtain ⟨ds, rights, lefts⟩ := ih rest
      exact ⟨d :: ds, .cons right rights, .cons left lefts⟩

end RequestCompiler.Pointwise
